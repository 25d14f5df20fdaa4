/-!
# Glob patterns

A glob is read into tokens: `?` (any one byte), `*` (any run), `**` as a whole path
component (`**/` at the start, `/**` at the end, `/**/` inside; anywhere else `**` is
two `*`), character classes
`[...]`, `[!...]` and `[^...]` with ranges, alternatives `{a,b}` (which may nest) and
backslash escapes. Matching is over the bytes of the text: a separator is an ordinary
character, a class names single bytes (a multi-byte character in a class stands for its
bytes), and an empty alternative is dropped.

Matching computes the set of places reachable after each token, so it needs no
backtracking: the text matches when its end is reachable from its start.
-/

namespace JarDeploy

set_option autoImplicit false

/-- Why a glob cannot be read. -/
inductive GlobError where
  | unclosedClass
  | invalidRange (lo hi : Char)
  | unopenedAlternates
  | unclosedAlternates
  | danglingEscape
  deriving Repr, BEq

/-- The text of a glob error for the pattern `glob`. -/
def GlobError.message (glob : String) : GlobError → String
  | e =>
    let what := match e with
      | .unclosedClass => "unclosed character class; missing ']'"
      | .invalidRange lo hi => "invalid range; '" ++ lo.toString ++ "' > '" ++ hi.toString ++ "'"
      | .unopenedAlternates => "unopened alternate group; missing '\x7b' (maybe escape '\x7d' with '[\x7d]'?)"
      | .unclosedAlternates => "unclosed alternate group; missing '\x7d' (maybe escape '\x7b' with '[\x7b]'?)"
      | .danglingEscape => "dangling '\\'"
    "error parsing glob '" ++ glob ++ "': " ++ what

namespace Glob

/-- A token of a glob. -/
inductive Token where
  | literal (c : Char)
  | any
  | zeroOrMore
  /-- `**/` at the start: nothing, a separator, or anything ending in one. -/
  | recursivePrefix
  /-- `/**` at the end: a separator and anything after it. -/
  | recursiveSuffix
  /-- `/**/` inside: a separator, or one, anything, and another. -/
  | recursiveMiddle
  | charClass (negated : Bool) (ranges : List (Char × Char))
  | alternates (branches : List (List Token))
  deriving Repr, Inhabited

/-- The reader's state: the branches being filled (innermost first, each newest token
first) and, for each open `{`, how many branches were open before it. -/
structure ParseState where
  branches : List (List Token)
  opened : List Nat

/-- Adds a token to the innermost branch. -/
def ParseState.push (st : ParseState) (t : Token) : Except GlobError ParseState :=
  match st.branches with
  | b :: rest => .ok { st with branches := (t :: b) :: rest }
  | [] => .error .unopenedAlternates

/-- Reads a class body after `[` (and after `!` if negated): the ranges and the rest. -/
def readClass : Nat → List Char → List (Char × Char) → Bool → Bool →
    Except GlobError (List (Char × Char) × List Char)
  | 0, _, _, _, _ => .error .unclosedClass
  | _ + 1, [], _, _, _ => .error .unclosedClass
  | fuel + 1, c :: rest, ranges, first, inRange =>
    let extend (ranges : List (Char × Char)) (c : Char) : Except GlobError (List (Char × Char)) :=
      match ranges with
      | (lo, _) :: older => if c < lo then .error (.invalidRange lo c) else .ok ((lo, c) :: older)
      | [] => .ok [(c, c)]
    if c = ']' then
      if first then readClass fuel rest ((']', ']') :: ranges) false inRange
      else .ok ((if inRange then ('-', '-') :: ranges else ranges).reverse, rest)
    else if c = '-' then
      if first then readClass fuel rest (('-', '-') :: ranges) false false
      else if inRange then do
        let r ← extend ranges '-'
        readClass fuel rest r false false
      else readClass fuel rest ranges false true
    else if inRange then do
      let r ← extend ranges c
      readClass fuel rest r false false
    else readClass fuel rest ((c, c) :: ranges) false false

/-- Reads the glob's characters; `prev` is the character read before the current one. -/
def readTokens : Nat → List Char → Option Char → ParseState → Except GlobError ParseState
  | 0, _, _, st => .ok st
  | _ + 1, [], _, st => .ok st
  | fuel + 1, c :: rest, prev, st =>
    if c = '?' then do readTokens fuel rest (some c) (← st.push .any)
    else if c = '*' then
      match rest with
      | '*' :: after =>
        let current := (st.branches.head?).getD []
        let twoStars : Except GlobError ParseState := do
          readTokens fuel after (some '*') (← (← st.push .zeroOrMore).push .zeroOrMore)
        if current.isEmpty then
          match after with
          | [] => do readTokens fuel [] (some '*') (← st.push .recursivePrefix)
          | '/' :: more => do readTokens fuel more (some '/') (← st.push .recursivePrefix)
          | _ => twoStars
        else if prev != some '/' && (st.opened.isEmpty || (prev != some ',' && prev != some '\x7b')) then
          twoStars
        else
          let inGroup := !st.opened.isEmpty
          let next? : Option (Bool × List Char) := match after with
            | [] => some (true, [])
            | ',' :: _ => if inGroup then some (true, after) else none
            | '\x7d' :: _ => if inGroup then some (true, after) else none
            | '/' :: more => some (false, more)
            | _ => none
          match next?, st.branches with
          | some (isSuffix, more), (last :: older) :: outer =>
            let st' := { st with branches := older :: outer }
            let t : Token := match last with
              | .recursivePrefix => .recursivePrefix
              | .recursiveSuffix => .recursiveSuffix
              | _ => if isSuffix then .recursiveSuffix else .recursiveMiddle
            do readTokens fuel more (some (if isSuffix then '*' else '/')) (← st'.push t)
          | _, _ => twoStars
      | _ => do readTokens fuel rest (some c) (← st.push .zeroOrMore)
    else if c = '[' then
      let (negated, body) := match rest with
        | '!' :: more => (true, more)
        | '^' :: more => (true, more)
        | _ => (false, rest)
      match readClass (body.length + 1) body [] true false with
      | .ok (ranges, after) => do readTokens fuel after (some ']') (← st.push (.charClass negated ranges))
      | .error e => .error e
    else if c = '\x7b' then
      readTokens fuel rest (some c) { branches := [] :: st.branches, opened := st.branches.length :: st.opened }
    else if c = '\x7d' then
      match st.opened with
      | [] => .error .unopenedAlternates
      | start :: opened =>
        let count := st.branches.length - start
        let alts := (st.branches.take count).reverse.map List.reverse
        let st' : ParseState := { branches := st.branches.drop count, opened := opened }
        do readTokens fuel rest (some c) (← st'.push (.alternates alts))
    else if c = ',' then
      if st.opened.isEmpty then do readTokens fuel rest (some c) (← st.push (.literal ','))
      else readTokens fuel rest (some c) { st with branches := [] :: st.branches }
    else if c = '\\' then
      match rest with
      | [] => .error .danglingEscape
      | e :: more => do readTokens fuel more (some e) (← st.push (.literal e))
    else do readTokens fuel rest (some c) (← st.push (.literal c))

/-- A piece of the byte-level matcher. -/
inductive Piece where
  | byte (b : UInt8)
  | anyByte
  | anyRun
  /-- One byte in (or, negated, outside) the byte ranges. -/
  | byteSet (negated : Bool) (ranges : List (UInt8 × UInt8))
  | choice (branches : List (List Piece))
  | recursivePrefix
  | recursiveSuffix
  | recursiveMiddle
  deriving Repr, Inhabited

/-- The UTF-8 bytes of a character. -/
def bytesOf (c : Char) : List UInt8 := c.toString.toUTF8.toList

/-- The byte ranges a class range stands for when its ends are written as bytes: the
inner bytes of each end are single bytes, the last byte of the low end and the first of
the high end bound a range. -/
def byteRanges (r : Char × Char) : List (UInt8 × UInt8) :=
  if r.1 = r.2 then (bytesOf r.1).map fun b => (b, b)
  else
    let lo := bytesOf r.1
    let hi := bytesOf r.2
    (lo.dropLast.map fun b => (b, b)) ++ [((lo.getLast?).getD 0, (hi.head?).getD 0)] ++
      (hi.drop 1).map fun b => (b, b)

mutual
/-- The pieces of a token list. -/
def piecesOf : List Token → List Piece
  | [] => []
  | t :: rest => pieceOf t ++ piecesOf rest

/-- The pieces of one token. -/
def pieceOf : Token → List Piece
  | .literal c => (bytesOf c).map .byte
  | .any => [.anyByte]
  | .zeroOrMore => [.anyRun]
  | .recursivePrefix => [.recursivePrefix]
  | .recursiveSuffix => [.recursiveSuffix]
  | .recursiveMiddle => [.recursiveMiddle]
  | .charClass negated ranges => [.byteSet negated (ranges.flatMap byteRanges)]
  | .alternates branches =>
    let parts := (branchesOf branches).filter (fun p => !p.isEmpty)
    if parts.isEmpty then [] else [.choice parts]

/-- The pieces of each alternative. -/
def branchesOf : List (List Token) → List (List Piece)
  | [] => []
  | b :: rest => piecesOf b :: branchesOf rest
end

end Glob

/-- A compiled glob: the pattern as written and its matcher. -/
structure Glob where
  source : String
  pieces : List Glob.Piece
  deriving Repr, Inhabited

namespace Glob

/-- Reads a glob. -/
def parse (pattern : String) : Except GlobError Glob := do
  let cs := pattern.toList
  let st ← readTokens (cs.length + 1) cs none { branches := [[]], opened := [] }
  match st.branches with
  | [tokens] =>
    let tokens := tokens.reverse
    -- `**` alone matches everything
    let pieces := match tokens with
      | [.recursivePrefix] => [Piece.anyRun]
      | _ => piecesOf tokens
    .ok ⟨pattern, pieces⟩
  | _ => .error .unclosedAlternates

/-- Sorted, without repeats. -/
def dedup (xs : List Nat) : List Nat := xs.mergeSort.eraseDups

/-- Is the byte inside one of the ranges? -/
def inRanges (b : UInt8) (ranges : List (UInt8 × UInt8)) : Bool :=
  ranges.any fun r => r.1 ≤ b && b ≤ r.2

/-- The places just after each separator at or after `i`. -/
def slashesAfter (input : ByteArray) (i : Nat) : List Nat :=
  (List.range' i (input.size - i)).filterMap fun j =>
    if input[j]? = some 47 then some (j + 1) else none

mutual
/-- The places reachable after a sequence of pieces. -/
def reachAll (input : ByteArray) : List Piece → List Nat → List Nat
  | [], starts => starts
  | p :: rest, starts => reachAll input rest (reach input p starts)

/-- The places reachable after one piece. -/
def reach (input : ByteArray) : Piece → List Nat → List Nat
  | .byte b, starts => starts.filterMap fun i => if input[i]? = some b then some (i + 1) else none
  | .anyByte, starts => starts.filterMap fun i => if i < input.size then some (i + 1) else none
  | .anyRun, starts =>
    match starts.min? with
    | some lo => List.range' lo (input.size + 1 - lo)
    | none => []
  | .byteSet negated ranges, starts =>
    starts.filterMap fun i =>
      match input[i]? with
      | some b => if inRanges b ranges != negated then some (i + 1) else none
      | none => none
  | .choice branches, starts => dedup (reachBranches input branches starts)
  | .recursivePrefix, starts =>
    dedup (starts.flatMap fun i =>
      i :: (if input[i]? = some 47 then [i + 1] else []) ++ slashesAfter input i)
  | .recursiveSuffix, starts =>
    dedup (starts.flatMap fun i =>
      if input[i]? = some 47 then List.range' (i + 1) (input.size - i) else [])
  | .recursiveMiddle, starts =>
    dedup (starts.flatMap fun i =>
      if input[i]? = some 47 then (i + 1) :: slashesAfter input (i + 1) else [])

/-- The places reachable through any alternative. -/
def reachBranches (input : ByteArray) : List (List Piece) → List Nat → List Nat
  | [], _ => []
  | b :: rest, starts => reachAll input b starts ++ reachBranches input rest starts

end

/-- Does the glob match the whole text? -/
def isMatch (g : Glob) (text : String) : Bool :=
  let input := text.toUTF8
  (reachAll input g.pieces [0]).contains input.size

end Glob

end JarDeploy
