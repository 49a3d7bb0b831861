import ZxSpectrum.Toml.Value

namespace ZxSpectrum.Toml

/-! Documents: lines with headers and with keys and values, in order. -/

inductive Statement
  | entry (path : List String) (node : Node)
  | table (path : List String)
  | tables (path : List String)

namespace Statement

open Scanner Value

def scanEntry : Scanner Statement := do
  let path ← key
  discard (character '=')
  spaces
  let node ← value
  lineRest
  return .entry path node

def scanTable : Scanner Statement := do
  discard (character '[')
  let path ← key
  discard (character ']')
  lineRest
  return .table path

def scanTables : Scanner Statement := do
  text "[["
  let path ← key
  text "]]"
  lineRest
  return .tables path

def scanLine : Scanner (Option Statement) := do
  spaces
  (do newline; return none)
  <|> (do comment; lineEnd; return none)
  <|> some <$> (scanTables <|> scanTable <|> scanEntry)

def scanAll : Scanner (List Statement) := do
  discard (optional (character '\uFEFF'))
  let lines ← many scanLine
  spaces
  return lines.filterMap id

end Statement

/-! Building a document, statement by statement. -/

structure Builder where
  /-- All tables but the current one. -/
  root : Entries := {}
  /-- The path of the current table. That of the root is empty. -/
  path : List String := []
  /-- The current table is one of repeated tables. -/
  repeated : Bool := false
  current : Entries := {}

namespace Builder

def atPath (path : List String) (change : String → Entries → Option (Entries × α))
    (root : Entries) : Option (Entries × α) := do
  let key ← path.getLast?
  Entries.descend .implied (fun _ entries => change key entries) path.dropLast .header root

def close (builder : Builder) : Option Entries :=
  if builder.path = [] then some builder.current
  else do
    let (root, _) ← atPath builder.path
      (fun key entries =>
        match entries.get? key, builder.repeated with
        | none, true => some (entries.insert key (.tables [builder.current]), ())
        | none, false => some (entries.insert key (.table .header builder.current), ())
        | some (.tables items), true =>
          some (entries.insert key (.tables (builder.current :: items)), ())
        | _, _ => none)
      builder.root
    return root

/-- Starts a table. One that earlier headers have implied is taken up. -/
def startTable (path : List String) (root : Entries) : Option Builder := do
  let (root, current) ← atPath path
    (fun key entries =>
      match entries.get? key with
      | none => some (entries, {})
      | some (.table .implied inner) => some (entries.erase key, inner)
      | some _ => none)
    root
  return { root, path, current }

def startTables (path : List String) (root : Entries) : Option Builder := do
  let (root, _) ← atPath path
    (fun key entries =>
      match entries.get? key with
      | none | some (.tables _) => some (entries, ())
      | some _ => none)
    root
  return { root, path, repeated := true }

def add (builder : Builder) : Statement → Option Builder
  | .entry path node => do
    let current ← builder.current.define .dotted path node .header
    return { builder with current }
  | .table path => do startTable path (← builder.close)
  | .tables path => do startTables path (← builder.close)

end Builder

def parse (text : String) : Option Entries := do
  let statements ← Statement.scanAll.run text.toList
  let builder ← statements.foldlM Builder.add {}
  builder.close

end ZxSpectrum.Toml
