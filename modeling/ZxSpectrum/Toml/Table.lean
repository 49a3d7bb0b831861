import Std.Data.TreeMap.Raw.Basic

namespace ZxSpectrum.Toml

/-! Tables and what they hold. How a table came to be decides what may still be added to it. -/

inductive TableOrigin
  /-- Written with a header of its own, or the root. -/
  | header
  /-- Implied by the header of a table within it. -/
  | implied
  /-- Implied by a key with dots. -/
  | dotted
  /-- Written in braces. -/
  | inline
  /-- Implied by a key with dots, within braces. -/
  | inlineDotted
deriving DecidableEq

namespace TableOrigin

def isImplicit : TableOrigin → Bool
  | .implied | .dotted | .inlineDotted => true
  | .header | .inline => false

def isDotted : TableOrigin → Bool
  | .dotted | .inlineDotted => true
  | _ => false

def isInline : TableOrigin → Bool
  | .inline | .inlineDotted => true
  | _ => false

/-- A path that makes missing tables with one origin may lead on through a table of another.
Headers lead through all tables that are not in braces, keys with dots only through implicit
ones. -/
def leadsThrough (made table : TableOrigin) : Bool :=
  if made.isInline then table = .inlineDotted
  else !table.isInline && (made = .implied || table.isImplicit)

end TableOrigin

inductive Node
  | string (text : String)
  | integer (value : Int)
  /-- The bits of a 64-bit binary number. -/
  | float (bits : Nat)
  | boolean (value : Bool)
  /-- A date, a time or both. -/
  | moment
  | array (items : List Node)
  | table (origin : TableOrigin) (entries : Std.TreeMap.Raw String Node)
  /-- Tables under one header that is repeated for each, from the last to the first. -/
  | tables (items : List (Std.TreeMap.Raw String Node))

abbrev Entries := Std.TreeMap.Raw String Node

namespace Entries

/-- Follows a path from a table on and changes the table at its end. Tables that are missing on
the way are made, with an origin that says so; of repeated tables the last one counts. -/
def descend (made : TableOrigin) (change : TableOrigin → Entries → Option (Entries × α)) :
    (path : List String) → TableOrigin → Entries → Option (Entries × α)
  | [], origin, entries => change origin entries
  | key :: path, _, entries =>
    match entries.get? key with
    | none => do
      let (inner, result) ← descend made change path made {}
      return (entries.insert key (.table made inner), result)
    | some (.table origin inner) =>
      if made.leadsThrough origin then do
        let (inner, result) ← descend made change path origin inner
        return (entries.insert key (.table origin inner), result)
      else none
    | some (.tables (last :: earlier)) => do
      let (last, result) ← descend made change path .header last
      return (entries.insert key (.tables (last :: earlier)), result)
    | some _ => none

/-- Adds a value under a path of keys. Nothing can be defined twice, and a key with dots does
not add to a table that it has not implied. -/
def define (made : TableOrigin) (path : List String) (node : Node) (origin : TableOrigin)
    (entries : Entries) : Option Entries := do
  let key ← path.getLast?
  let parents := path.dropLast
  let (entries, _) ← descend made
    (fun origin entries =>
      if origin.isDotted = parents.isEmpty || entries.contains key then none
      else some (entries.insert key node, ()))
    parents origin entries
  return entries

def defineAll (made origin : TableOrigin) (values : List (List String × Node)) :
    Option Entries :=
  values.foldlM (fun entries (path, node) => entries.define made path node origin) {}

end Entries

end ZxSpectrum.Toml
