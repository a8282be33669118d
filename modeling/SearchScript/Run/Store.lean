import SearchScript.Value.Members

/-!
# The store of a run

Everything that a run can change: the slots behind cells, the names in the frames of environments,
and the names bound at a host. The frames that a run opens are emptied when it ends, so that a
function that outlives its run finds nothing of it.
-/

namespace SearchScript

/-- The outermost environment: the names that it was given, those bound since, and the files that it
can look up. -/
structure Host where
  globals : Table Value := []
  locals : Table Value := []
  files : Option FileStore := none
deriving Inhabited

/-- What a host binds a name to. A name bound since hides a name that was given. -/
def Host.find? (h : Host) (name : String) : Option Value :=
  match h.locals.find? name with
  | some v => some v
  | none => h.globals.find? name

/-- The state of runs. -/
structure Store where
  /-- The values behind cells. -/
  slots : Array Value := #[]
  /-- The names of the frames. -/
  tables : Array (Table Value) := #[]
  /-- The hosts. -/
  hosts : Array Host := #[]
  /-- How many functions were made. -/
  functions : Nat := 0
  /-- How many runs were begun. -/
  runs : Nat := 0
  /-- The run that is going on. -/
  live : Option Nat := none
  /-- The tables of the frames that the run opened. -/
  opened : List Nat := []
  /-- What the host's recorder noted, the last first. -/
  recorded : List Value := []
deriving Inhabited

namespace Store

/-! ## Cells and functions -/

/-- The value of a value: what a cell holds, and all else itself. -/
def snapshot (st : Store) : Value → Value
  | .cell slot => st.slots[slot]?.getD .null
  | v => v

/-- The type of a value, of a cell that of what it holds. -/
def typeOf (st : Store) (v : Value) : ValueType := (st.snapshot v).type

/-- A new cell that holds the value of a value. -/
def newCell (st : Store) (v : Value) : Value × Store :=
  (.cell st.slots.size, { st with slots := st.slots.push (st.snapshot v) })

/-- Stores the value of a value in a cell; nothing else can be assigned to. -/
def assign (st : Store) (target v : Value) : Except ValueError Store :=
  match target with
  | .cell slot => .ok { st with slots := st.slots.setIfInBounds slot (st.snapshot v) }
  | other => .error (.invalidOperation other.type .assign)

/-- A new function. -/
def newFunction (st : Store) (callable : Callable) : Value × Store :=
  (.function st.functions callable, { st with functions := st.functions + 1 })

/-! ## Frames and names -/

/-- The names of a frame. -/
def table (st : Store) (frame : Frame) : Table Value := st.tables[frame.table]?.getD []

/-- Binds a name in a frame. -/
def bindIn (st : Store) (frame : Frame) (name : String) (v : Value) : Store :=
  { st with tables := st.tables.modify frame.table (Table.insert name v) }

/-- Binds a name at a host. -/
def bindAtHost (st : Store) (host : Nat) (name : String) (v : Value) : Store :=
  { st with hosts := st.hosts.modify host fun h => { h with locals := h.locals.insert name v } }

/-- Binds a name in the innermost frame of an environment, or at its host. -/
def bind (st : Store) (env : Env) (name : String) (v : Value) : Store :=
  match env.frames with
  | frame :: _ => st.bindIn frame name v
  | [] => st.bindAtHost env.host name v

/-- What a name is at a host: bound by it, or the function that looks files up. -/
def hostValue? (st : Store) (host : Nat) (name : String) : Option Value :=
  let h := st.hosts[host]?.getD {}
  match h.find? name with
  | some v => some v
  | none => if name = "File" then some (.fileConstructor h.files) else none

/-- Looks a name up through frames. A shadow keeps a cell with a copy of what it finds further
out. -/
def resolveThrough (st : Store) (host : Nat) (name : String) :
    List Frame → Option (Value × Store)
  | [] => (st.hostValue? host name).map (·, st)
  | frame :: outer =>
    match (st.table frame).find? name with
    | some v => some (v, st)
    | none =>
      match frame.kind, resolveThrough st host name outer with
      | .scope, found => found
      | .shadow, none => none
      | .shadow, some (v, st) =>
        let (cell, st) := st.newCell v
        some (cell, st.bindIn frame name cell)

/-- Looks a name up in an environment. -/
def resolve? (st : Store) (env : Env) (name : String) : Option (Value × Store) :=
  st.resolveThrough env.host name env.frames

/-- Names followed by those of others that are not among them. -/
def mergeNames (names more : List String) : List String :=
  names ++ more.filter fun name => !names.contains name

/-- The names that are visible through frames, the innermost first. -/
def namesThrough (st : Store) (host : Nat) : List Frame → List String
  | [] =>
    let h := st.hosts[host]?.getD {}
    mergeNames h.locals.names h.globals.names
  | frame :: outer => mergeNames (st.table frame).names (namesThrough st host outer)

/-- Every name that is visible in an environment, once. -/
def visibleNames (st : Store) (env : Env) : List String :=
  st.namesThrough env.host env.frames

/-- Empties the innermost frame of an environment. A host keeps its names. -/
def release (st : Store) (env : Env) : Store :=
  match env.frames with
  | frame :: _ => { st with tables := st.tables.modify frame.table fun _ => [] }
  | [] => st

/-- A new environment with a frame in front of another one. -/
def newFrame (st : Store) (kind : FrameKind) (names : Table Value) (env : Env) : Env × Store :=
  ({ env with frames := ⟨kind, st.tables.size⟩ :: env.frames },
    { st with tables := st.tables.push names })

/-- A new environment that belongs to a run: if the run is still going on, the frame is emptied when
it ends. -/
def openFrame (st : Store) (run : Nat) (kind : FrameKind) (names : Table Value) (env : Env) :
    Env × Store :=
  let table := st.tables.size
  let (env, st) := st.newFrame kind names env
  if st.live = some run then (env, { st with opened := table :: st.opened }) else (env, st)

/-- Adds parameters to a table, each bound to a cell with a copy of its argument; a parameter
without one is null. -/
def bindParams (st : Store) (names : Table Value) :
    List String → List Value → Table Value × Store
  | [], _ => (names, st)
  | param :: params, args =>
    let (cell, st) := st.newCell (args.headD .null)
    bindParams st (names.insert param cell) params args.tail

/-- A new host. -/
def newHost (st : Store) (host : Host) : Env × Store :=
  (⟨[], st.hosts.size⟩, { st with hosts := st.hosts.push host })

/-! ## Runs -/

/-- Begins a run. -/
def beginRun (st : Store) : Nat × Store :=
  (st.runs, { st with runs := st.runs + 1, live := some st.runs, opened := [] })

/-- Ends the run that is going on: the frames that it opened are emptied. -/
def endRun (st : Store) : Store :=
  { st with
    tables := st.opened.foldl (fun tables table => tables.modify table fun _ => []) st.tables
    live := none
    opened := [] }

end Store

end SearchScript
