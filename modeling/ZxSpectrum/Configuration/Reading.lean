import ZxSpectrum.Configuration.GeometryField
import ZxSpectrum.Storage
import ZxSpectrum.Text.Utf8
import ZxSpectrum.Toml.Document

namespace ZxSpectrum.Configuration

/-! Reading a configuration from a document. Sections and fields that are missing keep their
defaults, and unknown ones are ignored. -/

open Toml (Node)

inductive Fields
  | named (entries : Toml.Entries)
  | listed (items : List Node)

namespace Fields

def ofNode : Node → Option Fields
  | .table _ entries => some (.named entries)
  | .array items => some (.listed items)
  | .tables items => some (.listed (items.reverse.map (.table .header ·)))
  | .moment => some (.named {})
  | _ => none

def get? (fields : Fields) (place : Nat) (name : String) : Option Node :=
  match fields with
  | .named entries => entries.get? name
  | .listed items => items[place]?

def read (fields : Fields) (place : Nat) (name : String) (decode : Node → Option α)
    (default : α) : Option α :=
  match fields.get? place name with
  | none => some default
  | some node => decode node

end Fields

def count : Node → Option Nat
  | .integer value => if 0 ≤ value ∧ value < UInt32.size then some value.toNat else none
  | _ => none

def boolean : Node → Option Bool
  | .boolean value => some value
  | _ => none

def text : Node → Option (Option String)
  | .string text => some (some text)
  | _ => none

/-- A number in the 32-bit format. Decimal numbers are first rounded to the 64-bit format,
integers are not. -/
def sample : Node → Option UInt32
  | .float bits => some (UInt32.ofNat (BinaryFormat.double.convert .single bits))
  | .integer value => some (UInt32.ofNat (BinaryFormat.single.round (value < 0) value.natAbs 1))
  | _ => none

def isEmpty : Node → Bool
  | .array items => items.isEmpty
  | .table _ entries => entries.isEmpty
  | .tables items => items.isEmpty
  | _ => false

/-- A contention pattern: its name, or a table with an empty value under its name and nothing
else. -/
def contentionOf : Node → Option ContentionPattern
  | .string name => ContentionPattern.ofName name
  | .table _ entries =>
    match entries.toList with
    | [(name, node)] => if isEmpty node then ContentionPattern.ofName name else none
    | _ => none
  | _ => none

def readField (fields : Fields) (geometry : Geometry) (field : GeometryField) :
    Option Geometry := do
  let value ← fields.read field.place field.name count (field.get geometry)
  return field.set value geometry

/-! The sections of a configuration, each from the fields of its table. -/

def geometryOf (node : Node) : Option Geometry := do
  let fields ← Fields.ofNode node
  let geometry ← GeometryField.all.foldlM (readField fields) {}
  let contention ← fields.read 14 "contention_type" contentionOf geometry.contention
  return { geometry with contention }

def processorOf (node : Node) : Option ProcessorConfiguration := do
  let fields ← Fields.ofNode node
  let default : ProcessorConfiguration := {}
  return {
    baseClock := ← fields.read 0 "base_clock_frequency" count default.baseClock
    multiplier := ← fields.read 1 "clock_multiplier" count default.multiplier }

def memoryOf (node : Node) : Option Bool := do
  let fields ← Fields.ofNode node
  fields.read 0 "contended" boolean ({} : Configuration).contended

def beeperOf (node : Node) : Option BeeperConfiguration := do
  let fields ← Fields.ofNode node
  let default : BeeperConfiguration := {}
  return {
    sampleRate := ← fields.read 0 "sample_rate" count default.sampleRate
    volume := ← fields.read 1 "volume" sample default.volume }

def tapeOf (node : Node) : Option TapeConfiguration := do
  let fields ← Fields.ofNode node
  return {
    input := ← fields.read 0 "input" text none
    outputDirectory := ← fields.read 1 "output_dir" text none }

def romOf (node : Node) : Option (Option String) := do
  let fields ← Fields.ofNode node
  fields.read 0 "path" text none

def ofEntries (entries : Toml.Entries) : Option Configuration := do
  let fields : Fields := .named entries
  let default : Configuration := {}
  return {
    screen := ← fields.read 0 "screen" geometryOf default.screen
    processor := ← fields.read 1 "cpu" processorOf default.processor
    contended := ← fields.read 2 "memory" memoryOf default.contended
    beeper := ← fields.read 3 "beeper" beeperOf default.beeper
    tape := ← fields.read 4 "tape" tapeOf default.tape
    romPath := ← fields.read 5 "rom" romOf default.romPath }

def ofText (text : String) : Except Error Configuration :=
  match (Toml.parse text).bind ofEntries with
  | some configuration => .ok configuration
  | none => .error .configuration

def load (storage : Storage) (path : Path) : Except Error Configuration :=
  match storage.read path with
  | .error _ => .error .file
  | .ok bytes =>
    match Text.Utf8.decode? bytes with
    | none => .error .file
    | some text => ofText text

end ZxSpectrum.Configuration
