import JarDeploy.Toml.Parse

/-!
# Assembling a TOML document

The document is read line by line: comments, blank lines, key-value pairs and table
headers. Pairs go into the table opened by the last header (the root before any); a
header closes that table and files it under its path in the root, then opens its own.
Opening a table checks its place at once, so that a table defined twice is refused at
its second header: only a table implied by a longer header may be opened again, and it
moves to the end of its parent, keeping what it holds. Dotted keys create tables on the
way; a path through a plain value, a dotted key through a table defined by a header, and
a repeated key are refused. A table's span grows from its header to the last value
defined in it; an array of tables spans its first table to its last.
-/

namespace JarDeploy.Toml

set_option autoImplicit false

/-- The state of assembly: the root's entries, and the table being filled. -/
structure Assembly where
  root : List (Key × Item) := []
  current : List (Key × Item) := []
  currentSpan : Option Span := none
  currentPath : List Key := []
  currentIsArray : Bool := false

/-- Applies `f` to the entries of the table at `path` below `entries`, making implicit
tables (dotted ones when `dotted`) where the path is missing. A dotted key may not pass
through a table defined by a header. `f` is told whether the table it gets was made by
dotted keys. -/
def descend {α : Type} (entries : List (Key × Item)) (path : List Key) (walked : List Key)
    (dotted isDotted : Bool)
    (f : List (Key × Item) → Bool → Except Clash (List (Key × Item) × α)) :
    Except Clash (List (Key × Item) × α) :=
  match path with
  | [] => f entries isDotted
  | k :: rest =>
    let here := walked ++ [k]
    match lookup entries k.name with
    | none => do
      let (sub, a) ← descend [] rest here dotted dotted f
      .ok (entries ++ [(k, .table sub none true dotted)], a)
    | some (.value v) => .error (.extendsValue (here.map Key.name) v.typeName)
    | some (.table sub sp imp d) =>
      if dotted && !imp then .error (.duplicateKey k.name none)
      else do
        let (sub', a) ← descend sub rest here dotted d f
        .ok (upsert entries k (.table sub' sp imp d), a)
    | some (.tables ts sp) =>
      match ts.getLast? with
      | some (.table sub tsp imp d) => do
        let (sub', a) ← descend sub rest here dotted d f
        .ok (upsert entries k (.tables (ts.dropLast ++ [.table sub' tsp imp d]) sp), a)
      | _ => .error (.extendsValue (here.map Key.name) "array")

/-- Files a key-value pair into the table being filled. -/
def Assembly.addPair (st : Assembly) (path : List Key) (key : Key) (v : Value) : Except Clash Assembly := do
  let span := match st.currentSpan, v.span? with
    | some s, some vs => some ⟨s.start, vs.stop⟩
    | s, _ => s
  let tablePath := st.currentPath.map Key.name
  let (entries, _) ← descend st.current path [] true false fun entries isDotted =>
    if isDotted == path.isEmpty then .error (.duplicateKey key.name none)
    else if (lookup entries key.name).isSome then .error (.duplicateKey key.name (some tablePath))
    else .ok (entries ++ [(key, .value v)], ())
  return { st with current := entries, currentSpan := span }

/-- The span of an array of tables: from its first table to its last. -/
def arraySpan (ts : List Item) : Option Span :=
  match ts.head?.bind Item.span?, ts.getLast?.bind Item.span? with
  | some first, some last => some ⟨first.start, last.stop⟩
  | _, _ => none

/-- Files the table being filled under its path in the root. -/
def Assembly.finish (st : Assembly) : Except Clash Assembly := do
  let table : Item := .table st.current st.currentSpan false false
  match st.currentPath.reverse with
  | [] => return { st with root := st.current, current := [], currentSpan := none }
  | last :: revParent =>
    let parent := revParent.reverse
    let dup := Clash.duplicateKey last.name (some (parent.map Key.name))
    let (root, _) ← descend st.root parent [] false false fun entries _ =>
      match lookup entries last.name with
      | none =>
        if st.currentIsArray then .ok (entries ++ [(last, .tables [table] (arraySpan [table]))], ())
        else .ok (entries ++ [(last, table)], ())
      | some (.tables ts _) =>
        if st.currentIsArray then
          let ts := ts ++ [table]
          .ok (upsert entries last (.tables ts (arraySpan ts)), ())
        else .error dup
      | some (.table _ _ true _) =>
        if st.currentIsArray then .error dup else .ok (upsert entries last table, ())
      | some _ => .error dup
    return { st with root := root, current := [], currentSpan := none }

/-- Opens the table of a header after filing the one being filled. The header's place
is checked now: an array of tables is made or extended, a table is new or takes over a
table implied by a longer header (which leaves its parent, to come back at the end). -/
def Assembly.openTable (st : Assembly) (path : List Key) (isArray : Bool) (span : Span) :
    Except Clash Assembly := do
  let st ← st.finish
  match path.reverse with
  | [] => return st
  | last :: revParent =>
    let parent := revParent.reverse
    let dup := Clash.duplicateKey last.name (some (parent.map Key.name))
    let (root, current) ← descend st.root parent [] false false fun entries _ =>
      match lookup entries last.name, isArray with
      | none, false => .ok (entries, [])
      | none, true => .ok (entries ++ [(last, .tables [] none)], [])
      | some (.tables _ _), true => .ok (entries, [])
      | some (.table sub _ true false), false => .ok (entries.filter (·.1.name != last.name), sub)
      | some _, _ => .error dup
    return { st with root := root, current := current, currentSpan := some span, currentPath := path,
                     currentIsArray := isArray }

/-- A table header at `i`: its path, whether it opens an array of tables, its span and
the index after the line. -/
def header (src : Source) (fuel i : Nat) : Step (List Key × Bool × Span) :=
  let isArray := src.hasAt i "[["
  let open_ := if isArray then i + 2 else i + 1
  (((keyPath src fuel open_).commit.andThen fun path j =>
    let closeOk := if isArray then src.hasAt j "]]" else src.isAt j ']'
    if !closeOk then .cut { offset := j, expected := [charItem '.', charItem ']'] }
    else
      let k := if isArray then j + 2 else j + 1
      match lineTrailing src k with
      | .ok _ m => .ok (path, isArray, ⟨i, k⟩) m
      | .back f => .cut { f with expected := f.expected ++ [charItem '\n', charItem '#'] }
      | .cut f => .cut f)).label "table header"

/-- A key-value line at `i`: the key path, the value and the index after the line. -/
def pairLine (src : Source) (fuel i : Nat) : Step (List Key × Value) :=
  (keyPath src fuel i).commit.andThen fun path j =>
    if !src.isAt j '=' then .cut { offset := j, expected := [charItem '.', charItem '='] }
    else
      match value src fuel 0 (ws src (j + 1)) with
      | .ok v k =>
        match lineTrailing src k with
        | .ok _ m => .ok (path, v) m
        | .back f => .cut { f with expected := f.expected ++ [charItem '\n', charItem '#'] }
        | .cut f => .cut f
      | .back f => .cut f
      | .cut f => .cut f

/-- Reads lines from `i` into the assembly. -/
def lines (src : Source) (fuel : Nat) : Nat → Nat → Assembly → Step Assembly
  | 0, i, st => .ok st i
  | n + 1, i, st =>
    match src.at? i with
    | none => .ok st i
    | some b =>
      let next (st : Assembly) (j : Nat) : Step Assembly := lines src fuel n (ws src j) st
      if b == 35 then
        let j := (comment? src i).getD i
        match lineEnding src j with
        | .ok _ k => next st k
        | _ => .cut { offset := j }
      else if b == 91 then
        match header src fuel i with
        | .ok (path, isArray, span) k =>
          match st.openTable path isArray span with
          | .ok st' => next st' k
          | .error c => .cut { offset := i, labels := ["table header"], cause := some c.message }
        | .back f => .cut f
        | .cut f => .cut f
      else if b == 10 || b == 13 then
        match newline? src i with
        | some k => next st k
        | none => .back { offset := i }
      else
        match pairLine src fuel i with
        | .ok (path, v) k =>
          match path.reverse with
          | [] => .cut { offset := i }
          | key :: revPath =>
            match st.addPair revPath.reverse key v with
            | .ok st' => next st' k
            | .error c => .cut { offset := i, cause := some c.message }
        | .back f => .cut f
        | .cut f => .cut f

/-- Why a document cannot be read: a failure at an offset of the text, or a structural
problem found when the last table was filed. -/
inductive ReadFailure where
  | at_ (f : Failure)
  | clash (c : Clash)

/-- Reads a whole document into its root table's entries. -/
def parseDocument (text : String) : Except ReadFailure (List (Key × Item)) :=
  let src : Source := ⟨text.toUTF8⟩
  let size := src.bytes.size
  let start := if src.hasAt 0 "\uFEFF" then 3 else 0
  let fuel := 2 * size + 16
  match lines src fuel (size + 2) (ws src start) {} with
  | .ok st i =>
    if i < size then .error (.at_ { offset := i })
    else
      match st.finish with
      | .ok st' => .ok st'.root
      | .error c => .error (.clash c)
  | .back f => .error (.at_ f)
  | .cut f => .error (.at_ f)

end JarDeploy.Toml
