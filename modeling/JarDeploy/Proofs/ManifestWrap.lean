import JarDeploy.Proofs.Manifest

/-!
# Manifest lines within the byte limit

A written manifest keeps every line within 72 bytes of UTF-8: split at each CRLF, no piece
of `Manifest.render` is longer. Wrapping an attribute cuts `key: value` only between
characters, and greedily: the first line takes as many characters as fit in 72 bytes, each
continuation line a space and as many as fit in the 71 bytes left, and no continuation line
is empty. So the first line starts with the key whenever the key fits in 72 bytes. A longer
key is cut like any other text, and then the first line is only a prefix of it.

Splitting the text at CRLF (`crlfLines`) can cut a written line further, since a value may
hold a CRLF of its own; every piece still lies inside one written line, so the bound on
written lines carries over.
-/

namespace JarDeploy.Manifest

set_option autoImplicit false

/-! ## Bytes of a line -/

/-- The number of bytes the characters of a line take in UTF-8. -/
def lineBytes : List Char → Nat
  | [] => 0
  | c :: cs => c.utf8Size + lineBytes cs

@[simp] theorem lineBytes_nil : lineBytes [] = 0 := rfl

@[simp] theorem lineBytes_cons (c : Char) (cs : List Char) :
    lineBytes (c :: cs) = c.utf8Size + lineBytes cs := rfl

@[simp] theorem lineBytes_append (l l' : List Char) :
    lineBytes (l ++ l') = lineBytes l + lineBytes l' := by
  induction l with
  | nil => simp
  | cons c cs ih => simp [ih, Nat.add_assoc]

theorem lineBytes_eq_utf8ByteSize (l : List Char) : lineBytes l = (String.ofList l).utf8ByteSize := by
  induction l with
  | nil => simp
  | cons c cs ih => rw [lineBytes_cons, ih, String.ofList_cons, String.utf8ByteSize_append,
      String.utf8ByteSize_singleton]

/-- The bytes of a text are the bytes of its characters. -/
@[simp] theorem lineBytes_toList (s : String) : lineBytes s.toList = s.utf8ByteSize := by
  rw [lineBytes_eq_utf8ByteSize, String.ofList_toList]

/-! ## Lines between CRLFs -/

/-- A text split at each CRLF, found from left to right. -/
def crlfLines : List Char → List (List Char)
  | [] => [[]]
  | '\r' :: '\n' :: rest => [] :: crlfLines rest
  | c :: rest => (crlfLines rest).modifyHead (c :: ·)

theorem crlfLines_ne_nil (l : List Char) : crlfLines l ≠ [] := by
  induction l using crlfLines.induct with
  | case1 => simp [crlfLines]
  | case2 rest _ => simp [crlfLines]
  | case3 c rest h ih => simpa [crlfLines.eq_3 c rest h] using ih

/-- A line ended by CRLF splits apart from the text after it: the CRLF is found at its place,
as the line's last character, even a carriage return, is not followed by a line feed. -/
theorem crlfLines_append_crlf (l rest : List Char) :
    crlfLines (l ++ '\r' :: '\n' :: rest) = crlfLines l ++ crlfLines rest := by
  induction l using crlfLines.induct with
  | case1 => simp [crlfLines]
  | case2 l ih => simp [crlfLines, ih]
  | case3 c l h ih =>
    have h' : ∀ r, c = '\r' → l ++ '\r' :: '\n' :: rest = '\n' :: r → False := by
      intro r hc hr
      cases l with
      | nil => simp at hr
      | cons d ds => exact h ds hc (by simp at hr; simp [hr.1])
    obtain ⟨y, ys, hy⟩ := List.exists_cons_of_ne_nil (crlfLines_ne_nil l)
    rw [List.cons_append, crlfLines.eq_3 c _ h', ih, crlfLines.eq_3 c l h, hy]
    rfl

/-- A piece between CRLFs is no longer than the text it is cut from. -/
theorem lineBytes_le_of_mem_crlfLines (l : List Char) :
    ∀ x ∈ crlfLines l, lineBytes x ≤ lineBytes l := by
  induction l using crlfLines.induct with
  | case1 => simp [crlfLines]
  | case2 rest ih =>
    intro x hx
    rw [crlfLines.eq_2, List.mem_cons] at hx
    rcases hx with rfl | hx
    · simp
    · have := ih x hx
      simp only [lineBytes_cons]
      omega
  | case3 c rest h ih =>
    intro x hx
    obtain ⟨y, ys, hy⟩ := List.exists_cons_of_ne_nil (crlfLines_ne_nil rest)
    rw [crlfLines.eq_3 c rest h, hy, List.modifyHead_cons, List.mem_cons] at hx
    -- the first piece gains the character, the others are pieces of the rest
    rcases hx with rfl | hx
    · have := ih y (hy ▸ List.mem_cons_self)
      simp only [lineBytes_cons]
      omega
    · have := ih x (hy ▸ List.mem_cons_of_mem y hx)
      simp only [lineBytes_cons]
      omega

/-- Lines each ended by CRLF split into the pieces of each line, then the empty piece after
the last CRLF. -/
theorem crlfLines_linesText (ls : List (List Char)) :
    crlfLines (linesText ls) = ls.flatMap crlfLines ++ [[]] := by
  induction ls with
  | nil => simp [crlfLines]
  | cons l ls ih => rw [linesText_cons, crlfLines_append_crlf, ih, List.flatMap_cons, List.append_assoc]

/-- If every line of a text ended by CRLFs fits in `n` bytes, so does every piece of it
between CRLFs. -/
theorem crlfLines_linesText_le {ls : List (List Char)} {n : Nat} (h : ∀ l ∈ ls, lineBytes l ≤ n) :
    ∀ x ∈ crlfLines (linesText ls), lineBytes x ≤ n := by
  intro x hx
  rw [crlfLines_linesText, List.mem_append, List.mem_flatMap] at hx
  rcases hx with ⟨l, hl, hx⟩ | hx
  · exact (lineBytes_le_of_mem_crlfLines l x hx).trans (h l hl)
  · simp_all

/-! ## Wrapping an attribute -/

/-- Wrapping keeps the current line within its limit and every continuation line within
71 bytes after its space, and it is greedy: a continuation line starts only where the next
character would pass the limit of the line before it. -/
theorem foldl_wrapStep_fits (cs : List Char) (out chunk : String) (len limit : Nat)
    (hlen : chunk.utf8ByteSize = len) (hfit : len ≤ limit) :
    ∃ (p : List Char) (more : List (List Char)), cs = p ++ more.flatten ∧
      wrapText (cs.foldl wrapStep (out, chunk, len, limit)) ++ ['\r', '\n'] =
        out.toList ++ linesText ((chunk.toList ++ p) :: more.map (' ' :: ·)) ∧
      lineBytes (chunk.toList ++ p) ≤ limit ∧
      (∀ l ∈ more, l ≠ [] ∧ lineBytes l ≤ maxLineBytes - 1) ∧
      ∀ l ∈ more.head?, ∀ c ∈ l.head?, limit < lineBytes (chunk.toList ++ p) + c.utf8Size := by
  induction cs generalizing out chunk len limit with
  | nil => exact ⟨[], [], rfl, by simp [wrapText], by simp [hlen, hfit], by simp, by simp⟩
  | cons c cs ih =>
    rw [List.foldl_cons]
    by_cases hbreak : len + c.utf8Size > limit
    · -- the character opens a continuation line, with 71 bytes after its space
      have hc : c.utf8Size ≤ maxLineBytes - 1 := by
        have := Char.utf8Size_le_four c
        simp only [maxLineBytes]
        omega
      obtain ⟨p, more, hcs, htext, hp, hmore, -⟩ :=
        ih (out ++ chunk ++ "\r\n ") c.toString c.utf8Size (maxLineBytes - 1) (by simp) hc
      refine ⟨[], (c :: p) :: more, by simp [hcs], ?_, by simp [hlen, hfit], ?_, ?_⟩
      · simp only [wrapStep, hbreak, if_true, htext]
        simp
      · simpa using And.intro (by simpa using hp) hmore
      · simpa [hlen] using hbreak
    · obtain ⟨p, more, hcs, htext, hp, hmore, hgreedy⟩ :=
        ih out (chunk.push c) (len + c.utf8Size) limit (by simp [hlen]) (by omega)
      have hchunk : (chunk.push c).toList ++ p = chunk.toList ++ c :: p := by
        simp [String.toList_push]
      refine ⟨c :: p, more, by simp [hcs], ?_, hchunk ▸ hp, hmore, hchunk ▸ hgreedy⟩
      simp only [wrapStep, hbreak, if_false, htext]
      simp [String.toList_push]

/-- The lines an attribute is written on: the longest piece of `key: value` that fits in
72 bytes, then continuation lines, each a space and a piece that is not empty and fits in
the 71 bytes left. -/
theorem wrapAttribute_fits (k v : String) :
    ∃ (first : List Char) (more : List (List Char)),
      (wrapAttribute k v).toList = linesText (first :: more.map (' ' :: ·)) ∧
      first ++ more.flatten = (k ++ ": " ++ v).toList ∧
      lineBytes first ≤ maxLineBytes ∧ (∀ l ∈ more, l ≠ [] ∧ lineBytes l ≤ maxLineBytes - 1) ∧
      ∀ l ∈ more.head?, ∀ c ∈ l.head?, maxLineBytes < lineBytes first + c.utf8Size := by
  obtain ⟨p, more, hcs, htext, hp, hmore, hgreedy⟩ :=
    foldl_wrapStep_fits (k ++ ": " ++ v).toList "" "" 0 maxLineBytes (by simp) (by simp)
  refine ⟨p, more, ?_, hcs.symm, by simpa using hp, hmore, by simpa using hgreedy⟩
  rw [toList_wrapAttribute, htext]
  simp

/-- A greedy first line of a text that starts with `k` holds all of `k` when `k` fits in the
limit, and is a prefix of `k` when it does not. -/
theorem prefix_of_greedy {k rest first : List Char} {more : List (List Char)} {n : Nat}
    (hspell : first ++ more.flatten = k ++ rest) (hfirst : lineBytes first ≤ n)
    (hmore : ∀ l ∈ more, l ≠ [])
    (hgreedy : ∀ l ∈ more.head?, ∀ c ∈ l.head?, n < lineBytes first + c.utf8Size) :
    (lineBytes k ≤ n → k <+: first) ∧ (n < lineBytes k → first <+: k) := by
  rcases List.append_eq_append_iff.1 hspell with ⟨k', hk, hflat⟩ | ⟨r, hr, -⟩
  · -- the first line stops inside `k`, before the characters `k'`
    refine ⟨fun hk_fit => ?_, fun _ => ⟨k', hk.symm⟩⟩
    cases k' with
    | nil => simp [hk]
    | cons d k' =>
      -- the character after the first line belongs to `k`, so it would have fitted
      obtain ⟨l, more', rfl⟩ := List.exists_cons_of_ne_nil
        (by rintro rfl; simp at hflat : more ≠ [])
      obtain ⟨e, l', rfl⟩ := List.exists_cons_of_ne_nil (hmore l List.mem_cons_self)
      have hd : e = d := by simp at hflat; exact hflat.1
      have := hgreedy _ rfl e rfl
      subst hd
      simp only [hk, lineBytes_append, lineBytes_cons] at hk_fit
      omega
  · -- the first line holds all of `k`
    refine ⟨fun _ => ⟨r, hr.symm⟩, fun hk_long => ?_⟩
    simp only [hr, lineBytes_append] at hfirst
    omega

/-! ## A written manifest -/

/-- Texts each written as lines of some kind, joined, are written as lines of that kind. -/
theorem join_linesText {α : Type} {P : List Char → Prop} (f : α → String) (xs : List α)
    (h : ∀ x ∈ xs, ∃ ls, (f x).toList = linesText ls ∧ ∀ l ∈ ls, P l) :
    ∃ ls, (String.join (xs.map f)).toList = linesText ls ∧ ∀ l ∈ ls, P l := by
  induction xs with
  | nil => exact ⟨[], by simp, by simp⟩
  | cons x xs ih =>
    obtain ⟨ls, hx, hP⟩ := h x List.mem_cons_self
    obtain ⟨ls', hxs, hP'⟩ := ih fun y hy => h y (List.mem_cons_of_mem _ hy)
    refine ⟨ls ++ ls', ?_, List.forall_mem_append.2 ⟨hP, hP'⟩⟩
    rw [List.map_cons, String.toList_join, List.flatMap_cons, ← String.toList_join, hx, hxs,
      linesText_append]

/-- A manifest is written as lines of at most 72 bytes each. -/
theorem render_linesText (m : Manifest) :
    ∃ ls, m.render.toList = linesText ls ∧ ∀ l ∈ ls, lineBytes l ≤ maxLineBytes := by
  rw [toList_render]
  refine join_linesText renderBlock m.blocks fun b _ => ?_
  obtain ⟨ls, htext, hfit⟩ := join_linesText (fun a => wrapAttribute a.1 a.2) b fun a _ => by
    obtain ⟨first, more, htext, -, hfirst, hmore, -⟩ := wrapAttribute_fits a.1 a.2
    refine ⟨first :: more.map (' ' :: ·), htext, ?_⟩
    -- a continuation line is its space and at most 71 bytes
    simp only [List.mem_cons, List.mem_map]
    rintro l (rfl | ⟨l', hl', rfl⟩)
    · exact hfirst
    · have := (hmore l' hl').2
      simp only [lineBytes_cons, maxLineBytes] at this ⊢
      have : ' '.utf8Size = 1 := rfl
      omega
  refine ⟨ls ++ [[]], ?_, List.forall_mem_append.2 ⟨hfit, by simp⟩⟩
  rw [renderBlock, String.toList_append, htext]
  simp

/-- Every line of a written manifest, split at CRLF, holds at most 72 bytes. Every attribute,
the `Name` of a section among them, is written as a first line and continuation lines each
made of a space and at least one character, which spell `key: value` once the CRLF and
space before each continuation are taken out. The first line starts with the key when the key
takes at most 72 bytes; a longer key is cut, and the first line is a prefix of it. -/
theorem render_within_line_limit (m : Manifest) :
    (∀ l ∈ crlfLines m.render.toList, lineBytes l ≤ maxLineBytes) ∧
    ∀ b ∈ m.blocks, ∀ a ∈ b, ∃ (first : List Char) (more : List (List Char)),
      (wrapAttribute a.1 a.2).toList = linesText (first :: more.map (' ' :: ·)) ∧
      first ++ more.flatten = (a.1 ++ ": " ++ a.2).toList ∧ (∀ l ∈ more, l ≠ []) ∧
      (a.1.utf8ByteSize ≤ maxLineBytes → a.1.toList <+: first) ∧
      (maxLineBytes < a.1.utf8ByteSize → first <+: a.1.toList) := by
  refine ⟨?_, fun b _ a _ => ?_⟩
  · obtain ⟨ls, htext, hfit⟩ := render_linesText m
    exact htext ▸ crlfLines_linesText_le hfit
  · obtain ⟨first, more, htext, hspell, hfirst, hmore, hgreedy⟩ := wrapAttribute_fits a.1 a.2
    have hline : first ++ more.flatten = a.1.toList ++ (": " ++ a.2).toList := by
      rw [hspell, String.append_assoc, String.toList_append]
    have hkey := prefix_of_greedy hline hfirst (fun l hl => (hmore l hl).1) hgreedy
    rw [lineBytes_toList] at hkey
    exact ⟨first, more, htext, hspell, fun l hl => (hmore l hl).1, hkey⟩

/-- A key of 73 bytes does not fit on the first line: its last character opens the first
continuation line. -/
theorem render_cuts_long_key :
    crlfLines (render ⟨[(String.ofList (List.replicate 73 'K'), "v")], []⟩).toList =
      [List.replicate 72 'K', " K: v".toList, [], []] := by
  decide +kernel

end JarDeploy.Manifest
