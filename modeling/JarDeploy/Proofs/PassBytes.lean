import JarDeploy.Proofs.TaskBytes

/-!
# What single-pass processing leaves

Single-pass processing works on each staged jar pass after pass. Each round of a pass reads
its jar's bytes at one name of the directory and leaves the next bytes at another, and no
later round of any pass touches either name before the next pass reads it. So what a jar
ends with is what the chain of its passes (`Settings.passTasks`) leaves from its staged bytes:
the last jar under the jar's name without the prefix and, with pack200, the last pack beside
it (`Legacy.processDirectory_bytes`). Whether a jar is unsigned first is what the toolkit
answers for its staged bytes (`Toolkit.Answers`).
-/

namespace JarDeploy

set_option autoImplicit false

open Act

/-! ## A task run into the directory -/

section

variable {t : Task} {c : TaskSettings} {tk : Toolkit} {input dir : Path} {n n' : String} {w w' : World}

/-- A file in a plain directory reads the bytes at its place. -/
theorem bytesAt_of_read_push {d : Disk} {x : String} {X : ByteArray} (hdir : dir.Plain)
    (hx : Path.GoodName x) (h : d.read (dir.push x) = .ok X) : d.bytesAt (dir.names ++ [x]) = some X := by
  obtain ⟨-, -, hb⟩ := (Disk.read_plain ((Path.plain_push _ hx).2 hdir)).1 h
  rwa [Path.names_push _ hx] at hb

/-- Running a task into the directory, as `runInto_eq_ok` says, and the target then holds
what the task's tool yields from the bytes of the input. -/
theorem runInto_yields {target : String} (hdir : dir.Plain)
    (hwork : c.workingDirectory = dir.push scratchDirName) (hname : input.fileName? = some n)
    (hout : t.outputName c n = some n') (hn' : Path.GoodName n') (htarget : Path.GoodName target)
    (hts : target ≠ scratchDirName) {dest : Path}
    (h : (Legacy.runInto c tk t input dir target).runOn w = (.ok dest, w')) :
    dest = dir.push target ∧
      w'.calls = w.calls ++ tk.log [⟨t.toolOp, input, ((dir.push scratchDirName).push t.name).push n'⟩] ∧
      Legacy.Confined dir.names [target] w.disk w'.disk ∧
      ∃ X Y, w.disk.read input = .ok X ∧ tk.Yields t X Y ∧
        w'.disk.bytesAt (dir.names ++ [target]) = some Y := by
  obtain ⟨hdest, hc, hconf, -⟩ := runInto_eq_ok hdir hwork hname hout hn' htarget hts h
  refine ⟨hdest, hc, hconf, ?_⟩
  unfold Legacy.runInto at h
  obtain ⟨out, w₁, hex, hrest⟩ := runOn_bind_eq_ok h
  have hex' := runOn_mapError_eq_ok hex
  rw [hwork] at hex'
  have houtPlain := plain_scratchOutput t hdir hn'
  obtain ⟨hfits, hfile, hsame⟩ := execute_fits hname hout hex'
  obtain ⟨X, hX⟩ := Disk.isFile_iff_read.1 hfile
  obtain ⟨rfl, Y, hY, hread⟩ := Task.execute_yields hfits hout hname hsame houtPlain hX hex'
  obtain ⟨u, w₂, hren, hpure⟩ := runOn_bind_eq_ok hrest
  cases hpure
  -- the output is moved from the scratch directory to the target
  obtain ⟨-, -, hmoved⟩ := moveOut_eq_ok hdir hn' htarget hts (runOn_mapError_eq_ok hren)
  obtain ⟨-, -, hb⟩ := (Disk.read_plain houtPlain).1 hread
  refine ⟨X, Y, hX, hY, ?_⟩
  rw [hmoved, ← names_scratchOutput dir t hn', hb]

end

namespace Legacy

variable {pl : Place} {T : List String} {d d' : Disk} {x : String}

/-- The directories down to an entry of the directory stay. -/
theorem Confined.keeps_dirsTo (h : Confined pl T d d') (hd : d.DirsTo (pl ++ [x])) : d'.DirsTo (pl ++ [x]) :=
  fun k hk => h.dirs _ (take_not_mem_region hk) (hd k hk)

/-- A round reads, at an entry the rounds before it left alone, what the entry held when the
pass began. -/
theorem Confined.eq_of_read_push {dir : Path} {X X' : ByteArray} (h : Confined dir.names T d d')
    (hdir : dir.Plain) (hx : Path.GoodName x) (hxT : x ∉ T) (hs : x ≠ scratchDirName)
    (hX : d.bytesAt (dir.names ++ [x]) = some X) (hX' : d'.read (dir.push x) = .ok X') : X' = X := by
  rw [← h.bytesAt hxT hs, bytesAt_of_read_push hdir hx hX', Option.some.injEq] at hX
  exact hX

/-! ## Pass by pass -/

variable {tk : Toolkit} {dir : Path} {s : Settings} {B : List String} {w w' : World}

/-- Unsigning the batch: each jar holds afterwards what unsigning yields from it when the
toolkit finds it signed, and what it held otherwise. -/
theorem unsignPass_bytes (hdir : dir.Plain) (hB : Batch B)
    (hfiles : ∀ n ∈ B, ∃ X, w.disk.read (dir.push n) = .ok X) {u : Unit}
    (h : (unsignPass (taskSettings s dir) tk dir (B.map dir.push)).runOn w = (.ok u, w')) :
    ∀ n ∈ B, ∀ X, w.disk.read (dir.push n) = .ok X → ∃ b Y, tk.signedData X = .ok b ∧
      tk.Chain (if b then [.unsign] else []) (X, X) (Y, Y) ∧ w'.disk.bytesAt (dir.names ++ [n]) = some Y := by
  unfold unsignPass at h
  obtain ⟨u₁, w₁, hloop, hret⟩ := Act.runOn_bind_eq_ok h
  cases hret
  rw [List.forIn_map] at hloop
  have key := runOn_pass dir.names (fun n => [n])
    (fun n => if tk.findsSigned w.disk (dir.push n) then tk.log [passCall dir .unsign n n] else [])
    (fun n d => ∀ X, w.disk.read (dir.push n) = .ok X → ∃ b Y, tk.signedData X = .ok b ∧
      tk.Chain (if b then [.unsign] else []) (X, X) (Y, Y) ∧ d.bytesAt (dir.names ++ [n]) = some Y)
    (fun _ _ => True) ?step ?keep trivial hloop
  · exact key.2.2.2
  case step =>
    intro pre n post hsplit st w₁ res w₂ _ hconf hrun
    have hn : n ∈ B := by rw [hsplit]; simp
    have hs := hB.staged n hn
    -- the toolkit looks at the jar as it was staged: the rounds before changed only their own jars
    obtain ⟨X, hX⟩ := hfiles n hn
    have hpre : n ∉ pre.flatMap fun m => [m] := by
      simpa using fun h => hB.ne_of_split hsplit h rfl
    have hX₁ := hconf.read_push hdir hs.goodName hpre (jar_ne_scratch hs.endsWith_jar) hX
    obtain ⟨x, w₃, hx, hrest⟩ := Act.runOn_bind_eq_ok hrun
    obtain ⟨rfl, hw⟩ := Act.runOn_ofExcept_eq_ok (hs.stripPrefix_eq dir) hx
    subst w₃
    obtain ⟨b, w₄, hb, hrest⟩ := Act.runOn_bind_eq_ok hrest
    rw [Act.runOn_mapError, Toolkit.isSigned_runOn tk hX₁] at hb
    have hfinds : ∀ b', tk.signedData X = .ok b' → tk.findsSigned w.disk (dir.push n) = b' := by
      intro b' hsd
      simp only [Toolkit.findsSigned, hX, hsd]
    have hP : ∀ Y, tk.Chain (if b then [.unsign] else []) (X, X) (Y, Y) → tk.signedData X = .ok b →
        w₂.disk.bytesAt (dir.names ++ [n]) = some Y →
        ∀ X', w.disk.read (dir.push n) = .ok X' → ∃ b Y, tk.signedData X' = .ok b ∧
          tk.Chain (if b then [.unsign] else []) (X', X') (Y, Y) ∧ w₂.disk.bytesAt (dir.names ++ [n]) = some Y := by
      intro Y hY hsd hbytes X' hX'
      rw [hX, Except.ok.injEq] at hX'
      subst hX'
      exact ⟨b, Y, hsd, hY, hbytes⟩
    cases hsd : tk.signedData X with
    | error e => simp [hsd, Except.mapError] at hb
    | ok b' =>
      simp only [hsd, Except.mapError, Prod.mk.injEq, Except.ok.injEq] at hb
      obtain ⟨rfl, rfl⟩ := hb
      rw [hfinds b' hsd]
      cases b' with
      | false =>
        simp only [Bool.false_eq_true, if_false, Act.runOn_pure, Prod.mk.injEq, Except.ok.injEq] at hrest
        obtain ⟨rfl, rfl⟩ := hrest
        refine ⟨_, rfl, trivial, by simp, Confined.refl _ _ _, hP X (by simp) hsd ?_⟩
        exact bytesAt_of_read_push hdir hs.goodName hX₁
      | true =>
        simp only [if_true] at hrest
        obtain ⟨dest, w₅, hrun₅, hret⟩ := Act.runOn_bind_eq_ok hrest
        cases hret
        rw [nameOf_push dir hs.goodName] at hrun₅
        obtain ⟨-, hc₅, hconf₅, X', Y, hX', hY, hbytes⟩ := runInto_yields hdir taskSettings_workingDirectory
          (Path.fileName?_push _ hs.goodName) (Task.outputName_keep (by decide) (by decide) n)
          hs.goodName hs.goodName (jar_ne_scratch hs.endsWith_jar) hrun₅
        rw [hX₁, Except.ok.injEq] at hX'
        subst hX'
        refine ⟨_, rfl, trivial, by rw [hc₅, if_pos rfl]; rfl, hconf₅, hP Y ?_ hsd hbytes⟩
        exact Toolkit.chain_cons_iff.2 ⟨Y, hY, by simp⟩
  case keep =>
    intro pre n post hsplit m hm d d' hconf hP X hX
    obtain ⟨b, Y, hb, hY, hbytes⟩ := hP X hX
    have hsm := hB.staged m (by rw [hsplit]; simp [hm])
    refine ⟨b, Y, hb, hY, ?_⟩
    rw [hconf.bytesAt (by simpa using hB.ne_of_split hsplit hm) (jar_ne_scratch hsm.endsWith_jar)]
    exact hbytes

/-- Normalising the batch: each jar holds afterwards what packing it and unpacking the pack
yield from it. -/
theorem normalizePass_bytes (hdir : dir.Plain) (hB : Batch B) {u : Unit}
    (h : (normalizePass (taskSettings s dir) tk dir (B.map dir.push)).runOn w = (.ok u, w')) :
    ∀ n ∈ B, ∀ X, w.disk.bytesAt (dir.names ++ [n]) = some X →
      ∃ Y, tk.Chain [.pack200, .unpack200] (X, X) (Y, Y) ∧ w'.disk.bytesAt (dir.names ++ [n]) = some Y := by
  unfold normalizePass at h
  dsimp only at h
  obtain ⟨packed, w₁, hloop₁, hrest⟩ := Act.runOn_bind_eq_ok h
  obtain ⟨u₂, w₂, hloop₂, hret⟩ := Act.runOn_bind_eq_ok hrest
  cases hret
  rw [List.forIn_map] at hloop₁
  -- packing: each jar's pack lands beside it
  have key₁ := runOn_pass dir.names (fun n => [n ++ s.packExtension])
    (fun n => tk.log [passCall dir .pack200 n (n ++ s.packExtension)])
    (fun n d => ∀ X, w.disk.bytesAt (dir.names ++ [n]) = some X →
      ∃ P, tk.Yields .pack200 X P ∧ d.bytesAt (dir.names ++ [n ++ s.packExtension]) = some P)
    (fun pre st => st = pre.map fun n => dir.push (n ++ s.packExtension))
    ?pack ?keepPack rfl hloop₁
  · obtain ⟨rfl, -, -, hpk⟩ := key₁
    rw [List.forIn_map] at hloop₂
    -- unpacking: each pack goes back over its jar and is removed
    have key₂ := runOn_pass dir.names (fun n => [n, n ++ s.packExtension])
      (fun n => tk.log [passCall dir .unpack200 (n ++ s.packExtension) n])
      (fun n d => ∀ X, w.disk.bytesAt (dir.names ++ [n]) = some X →
        ∃ Y, tk.Chain [.pack200, .unpack200] (X, X) (Y, Y) ∧ d.bytesAt (dir.names ++ [n]) = some Y)
      (fun _ _ => True) ?unpack ?keepUnpack trivial hloop₂
    · exact key₂.2.2.2
    case unpack =>
      intro pre n post hsplit st w₃ res w₄ _ hconf hrun
      have hn : n ∈ B := by rw [hsplit]; simp
      have hs := hB.staged n hn
      have hgp := hs.goodName_packed s
      obtain ⟨x, w₅, hx, hrest⟩ := Act.runOn_bind_eq_ok hrun
      rw [Act.runOn_ofExcept] at hx
      obtain ⟨-, rfl⟩ := Prod.mk.inj hx
      rw [nameOf_push dir hgp, taskSettings_settings] at hrest
      obtain ⟨dest, w₆, hrun₆, hrest⟩ := Act.runOn_bind_eq_ok hrest
      simp only [endsWith_append_self, if_true, String.length_append, Nat.add_sub_cancel,
        String.Slice.toString_eq, take_append_length] at hrun₆
      obtain ⟨-, hc₆, hconf₆, P', Y, hP', hY, hbytes⟩ := runInto_yields hdir taskSettings_workingDirectory
        (Path.fileName?_push _ hgp) (Task.outputName_unpack200_append (ne_empty_of_endsWith_jar hs.endsWith_jar))
        hs.goodName hs.goodName (jar_ne_scratch hs.endsWith_jar) hrun₆
      obtain ⟨v, w₇, hrm, hret⟩ := Act.runOn_bind_eq_ok hrest
      cases hret
      obtain ⟨hconf₇, hc₇, -⟩ := removeFile_confined hdir hgp (Act.runOn_mapError_eq_ok hrm)
      refine ⟨_, rfl, trivial, by rw [hc₇, hc₆]; rfl,
        (hconf₆.mono (by simp)).trans (hconf₇.mono (by simp)), fun X hX => ?_⟩
      -- the pack is still as the packing pass left it: unpacking earlier jars did not touch it
      obtain ⟨P, hP, hpack⟩ := hpk n hn X hX
      have hout : n ++ s.packExtension ∉ pre.flatMap fun m => [m, m ++ s.packExtension] := by
        simp only [List.mem_flatMap, List.mem_cons, List.not_mem_nil, or_false, not_exists, not_and, not_or]
        intro m hm
        have hsm := hB.staged m (by rw [hsplit]; simp [hm])
        exact ⟨append_pack_ne_jar s n hsm.endsWith_jar,
          fun h => hB.ne_of_split hsplit hm (append_pack_inj s h).symm⟩
      obtain rfl := hconf.eq_of_read_push hdir hgp hout (append_pack_ne_scratch s n) hpack hP'
      refine ⟨Y, Toolkit.chain_cons_iff.2 ⟨P', hP, Toolkit.chain_cons_iff.2 ⟨Y, hY, by simp⟩⟩, ?_⟩
      rw [hconf₇.bytesAt (by simpa using (append_pack_ne_jar s n hs.endsWith_jar).symm)
        (jar_ne_scratch hs.endsWith_jar)]
      exact hbytes
    case keepUnpack =>
      intro pre n post hsplit m hm d d' hconf hP X hX
      obtain ⟨Y, hY, hbytes⟩ := hP X hX
      have hsn := hB.staged n (by rw [hsplit]; simp)
      have hsm := hB.staged m (by rw [hsplit]; simp [hm])
      have hout : m ∉ [n, n ++ s.packExtension] := by
        simp [(append_pack_ne_jar s n hsm.endsWith_jar).symm, hB.ne_of_split hsplit hm]
      refine ⟨Y, hY, ?_⟩
      rw [hconf.bytesAt hout (jar_ne_scratch hsm.endsWith_jar)]
      exact hbytes
  case pack =>
    intro pre n post hsplit st w₃ res w₄ hR hconf hrun
    have hs := hB.staged n (by rw [hsplit]; simp)
    obtain ⟨x, w₅, hx, hrest⟩ := Act.runOn_bind_eq_ok hrun
    obtain ⟨rfl, hw⟩ := Act.runOn_ofExcept_eq_ok (hs.stripPrefix_eq dir) hx
    subst w₅
    obtain ⟨dest, w₆, hrun₆, hret⟩ := Act.runOn_bind_eq_ok hrest
    cases hret
    rw [nameOf_push dir hs.goodName] at hrun₆
    obtain ⟨hdest, hc₆, hconf₆, X', P, hX', hP, hbytes⟩ := runInto_yields hdir taskSettings_workingDirectory
      (Path.fileName?_push _ hs.goodName) (Task.outputName_pack200 _)
      (hs.goodName_packed s) (hs.goodName_packed s) (append_pack_ne_scratch s _) hrun₆
    refine ⟨_, rfl, by rw [hR, hdest]; simp, hc₆, hconf₆, fun X hX => ⟨P, ?_, hbytes⟩⟩
    -- the jar is as it was staged: packing the jars before it wrote only their packs
    have hout : n ∉ pre.flatMap fun m => [m ++ s.packExtension] := by
      simp only [List.mem_flatMap, List.mem_singleton, not_exists, not_and]
      exact fun m _ => (append_pack_ne_jar s m hs.endsWith_jar).symm
    obtain rfl := hconf.eq_of_read_push hdir hs.goodName hout (jar_ne_scratch hs.endsWith_jar) hX hX'
    exact hP
  case keepPack =>
    intro pre n post hsplit m hm d d' hconf hP X hX
    obtain ⟨P, hP, hbytes⟩ := hP X hX
    have hn : n ∈ B := by rw [hsplit]; simp
    have hm' : m ∈ B := by rw [hsplit]; simp [hm]
    have hne : m ++ s.packExtension ≠ n ++ s.packExtension := fun h =>
      hB.ne_of_split hsplit hm (append_pack_inj s h)
    refine ⟨P, hP, ?_⟩
    rw [hconf.bytesAt (by simpa using hne) (append_pack_ne_scratch s _)]
    exact hbytes

/-- Signing the batch: under each jar's name without the prefix lies afterwards what signing
yields from the jar. -/
theorem signPass_bytes (hdir : dir.Plain) (hB : Batch B) {r r' : LegacyReport}
    (h : (signPass (taskSettings s dir) tk dir (B.map dir.push) r).runOn w = (.ok r', w')) :
    ∀ n ∈ B, ∀ X, w.disk.bytesAt (dir.names ++ [n]) = some X →
      ∃ Y, tk.Yields .sign X Y ∧ w'.disk.bytesAt (dir.names ++ [unprefixed n]) = some Y := by
  unfold signPass at h
  dsimp only at h
  obtain ⟨r₁, w₁, hloop, hret⟩ := Act.runOn_bind_eq_ok h
  cases hret
  rw [List.forIn_map] at hloop
  have key := runOn_pass dir.names (fun n => [unprefixed n, n])
    (fun n => tk.log [passCall dir .sign n n])
    (fun n d => ∀ X, w.disk.bytesAt (dir.names ++ [n]) = some X →
      ∃ Y, tk.Yields .sign X Y ∧ d.bytesAt (dir.names ++ [unprefixed n]) = some Y)
    (fun _ _ => True) ?step ?keep trivial hloop
  · exact key.2.2.2
  case step =>
    intro pre n post hsplit st w₁ res w₂ _ hconf hrun
    have hs := hB.staged n (by rw [hsplit]; simp)
    obtain ⟨target, w₃, htarget, hrest⟩ := Act.runOn_bind_eq_ok hrun
    obtain ⟨rfl, hw⟩ := Act.runOn_ofExcept_eq_ok (hs.stripPrefix_eq dir) htarget
    subst w₃
    obtain ⟨dest, w₄, hrun₄, hrest⟩ := Act.runOn_bind_eq_ok hrest
    obtain ⟨-, hc₄, hconf₄, X', Y, hX', hY, hbytes⟩ := runInto_yields hdir taskSettings_workingDirectory
      (Path.fileName?_push _ hs.goodName) (Task.outputName_keep (by decide) (by decide) n)
      hs.goodName hs.goodName_unprefixed (jar_ne_scratch hs.jar) hrun₄
    obtain ⟨u, w₅, hrm, hret⟩ := Act.runOn_bind_eq_ok hrest
    cases hret
    obtain ⟨hconf₅, hc₅, -⟩ := removeFile_confined hdir hs.goodName (Act.runOn_mapError_eq_ok hrm)
    refine ⟨_, rfl, trivial, by rw [hc₅, hc₄]; rfl,
      (hconf₄.mono (by simp)).trans (hconf₅.mono (by simp)), fun X hX => ⟨Y, ?_, ?_⟩⟩
    · -- the jar is as it was when the pass began: the rounds before moved only their own jars
      obtain rfl := hconf.eq_of_read_push hdir hs.goodName (hB.not_mem_moved hsplit)
        (jar_ne_scratch hs.endsWith_jar) hX hX'
      exact hY
    · rw [hconf₅.bytesAt (by simpa using hs.unprefixed_ne) (jar_ne_scratch hs.jar)]
      exact hbytes
  case keep =>
    intro pre n post hsplit m hm d d' hconf hP X hX
    obtain ⟨Y, hY, hbytes⟩ := hP X hX
    have hsm := hB.staged m (by rw [hsplit]; simp [hm])
    refine ⟨Y, hY, ?_⟩
    rw [hconf.bytesAt (hB.unprefixed_not_mem_moved hsplit hm) (jar_ne_scratch hsm.jar)]
    exact hbytes

/-- Renaming the batch: under each jar's name without the prefix lies afterwards what the jar
held. -/
theorem renamePass_bytes (hdir : dir.Plain) (hB : Batch B) {r r' : LegacyReport}
    (h : (renamePass dir (B.map dir.push) r).runOn w = (.ok r', w')) :
    ∀ n ∈ B, ∀ X, w.disk.bytesAt (dir.names ++ [n]) = some X →
      w'.disk.bytesAt (dir.names ++ [unprefixed n]) = some X := by
  unfold renamePass at h
  dsimp only at h
  obtain ⟨r₁, w₁, hloop, hret⟩ := Act.runOn_bind_eq_ok h
  cases hret
  rw [List.forIn_map] at hloop
  have key := runOn_pass dir.names (fun n => [unprefixed n, n]) (fun _ => [])
    (fun n d => ∀ X, w.disk.bytesAt (dir.names ++ [n]) = some X →
      d.bytesAt (dir.names ++ [unprefixed n]) = some X)
    (fun _ _ => True) ?step ?keep trivial hloop
  · exact key.2.2.2
  case step =>
    intro pre n post hsplit st w₁ res w₂ _ hconf hrun
    have hs := hB.staged n (by rw [hsplit]; simp)
    obtain ⟨target, w₃, htarget, hrest⟩ := Act.runOn_bind_eq_ok hrun
    obtain ⟨rfl, hw⟩ := Act.runOn_ofExcept_eq_ok (hs.stripPrefix_eq dir) htarget
    subst w₃
    obtain ⟨u, w₄, hren, hret⟩ := Act.runOn_bind_eq_ok hrest
    cases hret
    have hren' := Act.runOn_mapError_eq_ok hren
    have hsrc : (dir.push n).names = dir.names ++ [n] := Path.names_push _ hs.goodName
    have hdst : (dir.push (unprefixed n)).names = dir.names ++ [unprefixed n] :=
      Path.names_push _ hs.goodName_unprefixed
    have hsp : (dir.push n).Plain := (Path.plain_push _ hs.goodName).2 hdir
    have hdp : (dir.push (unprefixed n)).Plain := (Path.plain_push _ hs.goodName_unprefixed).2 hdir
    have hst : ¬ (dir.push n).names <+: (dir.push (unprefixed n)).names := by
      rw [hsrc, hdst, child_prefix_iff]
      exact hs.unprefixed_ne.symm
    have hts : ¬ (dir.push (unprefixed n)).names <+: (dir.push n).names := by
      rw [hsrc, hdst, child_prefix_iff]
      exact hs.unprefixed_ne
    have hsne : (dir.push n).names ≠ [] := by simp [hsrc]
    have hdne : (dir.push (unprefixed n)).names ≠ [] := by simp [hdst]
    obtain ⟨hk, hc⟩ := Act.frames_rename hsp hdp hsne hdne hst hts w₁ _ _ hren'
    obtain ⟨hmoved, -⟩ := Act.rename_ok hsp hdp hsne hdne hst hts hren'
    refine ⟨_, rfl, trivial, by simpa using hc, ?_, fun X hX => ?_⟩
    · refine Confined.of_keeps hk ?_
      rintro q (hq | hq)
      · exact mem_region_of_prefix (by simp) (hsrc ▸ hq)
      · exact mem_region_of_prefix (by simp) (hdst ▸ hq)
    · -- the jar is still where it was staged: the rounds before moved only their own jars
      rw [← hdst, hmoved, hsrc, hconf.bytesAt (hB.not_mem_moved hsplit) (jar_ne_scratch hs.endsWith_jar)]
      exact hX
  case keep =>
    intro pre n post hsplit m hm d d' hconf hP X hX
    have hsm := hB.staged m (by rw [hsplit]; simp [hm])
    rw [hconf.bytesAt (hB.unprefixed_not_mem_moved hsplit hm) (jar_ne_scratch hsm.jar)]
    exact hP X hX

/-- Packing the processed jars: beside each lies afterwards what packing yields from it. -/
theorem packPass_bytes (hdir : dir.Plain) (hB : Batch B) {r r' : LegacyReport}
    (hr : r.processed = B.map fun n => dir.push (unprefixed n))
    (h : (packPass (taskSettings s dir) tk dir r).runOn w = (.ok r', w')) :
    ∀ n ∈ B, ∀ J, w.disk.bytesAt (dir.names ++ [unprefixed n]) = some J →
      ∃ P, tk.Yields .pack200 J P ∧
        w'.disk.bytesAt (dir.names ++ [unprefixed n ++ s.packExtension]) = some P := by
  unfold packPass at h
  dsimp only at h
  obtain ⟨r₁, w₁, hloop, hret⟩ := Act.runOn_bind_eq_ok h
  cases hret
  rw [hr, List.forIn_map] at hloop
  have key := runOn_pass dir.names (fun n => [unprefixed n ++ s.packExtension])
    (fun n => tk.log [passCall dir .pack200 (unprefixed n) (unprefixed n ++ s.packExtension)])
    (fun n d => ∀ J, w.disk.bytesAt (dir.names ++ [unprefixed n]) = some J →
      ∃ P, tk.Yields .pack200 J P ∧ d.bytesAt (dir.names ++ [unprefixed n ++ s.packExtension]) = some P)
    (fun _ _ => True) ?step ?keep trivial hloop
  · exact key.2.2.2
  case step =>
    intro pre n post hsplit st w₁ res w₂ _ hconf hrun
    have hs := hB.staged n (by rw [hsplit]; simp)
    obtain ⟨dest, w₃, hrun₃, hret⟩ := Act.runOn_bind_eq_ok hrun
    cases hret
    rw [nameOf_push dir hs.goodName_unprefixed] at hrun₃
    obtain ⟨-, hc₃, hconf₃, J', P, hJ', hP, hbytes⟩ := runInto_yields hdir taskSettings_workingDirectory
      (Path.fileName?_push _ hs.goodName_unprefixed) (Task.outputName_pack200 _)
      (hs.goodName_unprefixed_packed s) (hs.goodName_unprefixed_packed s)
      (append_pack_ne_scratch s _) hrun₃
    refine ⟨_, rfl, trivial, hc₃, hconf₃, fun J hJ => ⟨P, ?_, hbytes⟩⟩
    -- the processed jar is as the pass found it: packing the jars before wrote only their packs
    have hout : unprefixed n ∉ pre.flatMap fun m => [unprefixed m ++ s.packExtension] := by
      simp only [List.mem_flatMap, List.mem_singleton, not_exists, not_and]
      exact fun m _ => (append_pack_ne_jar s _ hs.jar).symm
    obtain rfl := hconf.eq_of_read_push hdir hs.goodName_unprefixed hout (jar_ne_scratch hs.jar) hJ hJ'
    exact hP
  case keep =>
    intro pre n post hsplit m hm d d' hconf hP J hJ
    obtain ⟨P, hP, hbytes⟩ := hP J hJ
    have hn : n ∈ B := by rw [hsplit]; simp
    have hm' : m ∈ B := by rw [hsplit]; simp [hm]
    have hne : unprefixed m ++ s.packExtension ≠ unprefixed n ++ s.packExtension := fun h =>
      hB.ne_of_split hsplit hm (hB.unprefixed_inj hm' hn (append_pack_inj s h))
    refine ⟨P, hP, ?_⟩
    rw [hconf.bytesAt (by simpa using hne) (append_pack_ne_scratch s _)]
    exact hbytes

/-! ## The passes together -/

/-- The signing passes on the batch: under each jar's name without the prefix lies afterwards
what unsigning (when asked to and the toolkit finds the jar signed), normalising (with
pack200) and signing yield from the jar, one after another. -/
theorem signingPasses_bytes (hdir : dir.Plain) (hB : Batch B)
    (hfiles : ∀ n ∈ B, ∃ X, w.disk.bytesAt (dir.names ++ [n]) = some X ∧ w.disk.read (dir.push n) = .ok X)
    {r : LegacyReport}
    (h : (signingPasses (taskSettings s dir) tk dir (B.map dir.push)).runOn w = (.ok r, w')) :
    ∀ n ∈ B, ∀ X, w.disk.bytesAt (dir.names ++ [n]) = some X → ∃ x S,
      (if s.unsignAlreadySigned then tk.signedData X = .ok x else x = false) ∧
      tk.Chain ((if s.unsignAlreadySigned && x then [.unsign] else []) ++
        (if s.isPack200 then [.pack200, .unpack200] else []) ++ [.sign]) (X, X) (S, S) ∧
      w'.disk.bytesAt (dir.names ++ [unprefixed n]) = some S := by
  unfold signingPasses at h
  dsimp only at h
  rw [taskSettings_settings] at h
  obtain ⟨w₁, hun, hrest⟩ := Act.runOn_when_eq_ok h
  obtain ⟨w₂, hnorm, hsign⟩ := Act.runOn_when_eq_ok hrest
  intro n hn X hX
  -- unsigning, when asked to
  obtain ⟨x, U, hx, hU, hU₁⟩ : ∃ x U, (if s.unsignAlreadySigned then tk.signedData X = .ok x else x = false) ∧
      tk.Chain (if s.unsignAlreadySigned && x then [.unsign] else []) (X, X) (U, U) ∧
      w₁.disk.bytesAt (dir.names ++ [n]) = some U := by
    by_cases hu : s.unsignAlreadySigned = true
    · rw [if_pos hu] at hun
      have hread : w.disk.read (dir.push n) = .ok X := by
        obtain ⟨X₀, hX₀, hr⟩ := hfiles n hn
        rw [hX₀, Option.some.injEq] at hX
        rwa [← hX]
      obtain ⟨b, Y, hb, hY, hbytes⟩ :=
        unsignPass_bytes hdir hB (fun m hm => (hfiles m hm).imp fun _ h => h.2) hun n hn X hread
      exact ⟨b, Y, by rw [if_pos hu]; exact hb, by simpa [hu] using hY, hbytes⟩
    · rw [if_neg hu] at hun
      subst hun
      exact ⟨false, X, by rw [if_neg hu], by simp, hX⟩
  -- normalising, with pack200
  obtain ⟨N, hN, hN₂⟩ : ∃ N, tk.Chain (if s.isPack200 then [.pack200, .unpack200] else []) (U, U) (N, N) ∧
      w₂.disk.bytesAt (dir.names ++ [n]) = some N := by
    by_cases hp : s.isPack200 = true
    · rw [if_pos hp] at hnorm ⊢
      exact normalizePass_bytes hdir hB hnorm n hn U hU₁
    · rw [if_neg hp] at hnorm ⊢
      subst hnorm
      exact ⟨U, by simp, hU₁⟩
  -- signing
  obtain ⟨S, hS, hS'⟩ := signPass_bytes hdir hB hsign n hn N hN₂
  exact ⟨x, S, hx, (hU.append hN).append (Toolkit.chain_cons_iff.2 ⟨S, hS, by simp⟩), hS'⟩

/-- The passes that process the batch, signing or else renaming: under each jar's name without
the prefix lies afterwards what the signing part of the jar's passes leaves from it. -/
theorem processingPasses_bytes (hdir : dir.Plain) (hB : Batch B)
    (hfiles : ∀ n ∈ B, ∃ X, w.disk.bytesAt (dir.names ++ [n]) = some X ∧ w.disk.read (dir.push n) = .ok X)
    {r : LegacyReport}
    (h : (if s.isSign then signingPasses (taskSettings s dir) tk dir (B.map dir.push)
      else renamePass dir (B.map dir.push) {}).runOn w = (.ok r, w')) :
    ∀ n ∈ B, ∀ X, w.disk.bytesAt (dir.names ++ [n]) = some X → ∃ x J, tk.Answers s X x ∧
      tk.Chain (if s.isSign then (if s.unsignAlreadySigned && x then [.unsign] else []) ++
        (if s.isPack200 then [.pack200, .unpack200] else []) ++ [.sign] else []) (X, X) (J, J) ∧
      w'.disk.bytesAt (dir.names ++ [unprefixed n]) = some J := by
  intro n hn X hX
  by_cases hs : s.isSign = true
  · rw [if_pos hs] at h
    obtain ⟨x, J, hx, hJ, hbytes⟩ := signingPasses_bytes hdir hB hfiles h n hn X hX
    refine ⟨x, J, ?_, by rw [if_pos hs]; exact hJ, hbytes⟩
    rw [Toolkit.Answers, hs, Bool.true_and]
    by_cases hu : s.unsignAlreadySigned = true
    · rw [if_pos hu] at hx ⊢
      exact hx
    · rw [if_neg hu] at hx ⊢
      exact hx
  · rw [if_neg hs] at h
    refine ⟨false, X, ?_, by rw [if_neg hs]; simp, renamePass_bytes hdir hB h n hn X hX⟩
    have hs' : s.isSign = false := by simpa using hs
    simp [Toolkit.Answers, hs']

/-- **Single-pass processing leaves what the chain of each jar's passes leaves.** On the jars
staged in a directory since the start, when no staged name is another's with the prefix taken
off, processing that succeeds leaves, for each staged jar holding `X`, the last jar of the
chain of its passes under its name without the prefix and, with pack200, the last output (the
pack) beside it, the chain run for the answer the toolkit gives for `X`. -/
theorem processDirectory_bytes {start : Nat} {report : LegacyReport} (hdir : dir.Plain)
    (hd : w.disk.Proper) (hB : w.disk.stagedJars dir.names start = B)
    (hapart : ∀ m ∈ B, unprocessedPrefix ++ m ∉ B)
    (h : (processDirectory s tk start dir).runOn w = (.ok report, w')) :
    ∀ n ∈ B, ∀ X, w.disk.bytesAt (dir.names ++ [n]) = some X → ∃ x P J, tk.Answers s X x ∧
      tk.Chain (s.passTasks x) (X, X) (P, J) ∧ w'.disk.read (dir.push (unprefixed n)) = .ok J ∧
      (s.isPack200 = true → w'.disk.read (dir.push (unprefixed n ++ s.packExtension)) = .ok P) := by
  intro n hn X hX
  unfold processDirectory at h
  dsimp only at h
  obtain ⟨ps, w₁, hlist, hrest⟩ := Act.runOn_bind_eq_ok h
  obtain ⟨hw₁, hrel, hdirs, hhas, hps⟩ := listFiles_staged hd hdir (Act.runOn_mapError_eq_ok hlist)
  subst w₁
  rw [hps, hB] at hrest
  have hbatch : Batch B :=
    ⟨fun n hn => (Disk.mem_stagedJars hd (hB ▸ hn)).1, hB ▸ Disk.stagedJars_nodup hd _ _, hapart⟩
  have hfiles := fun n (hn : n ∈ B) => stagedJars_read hd hdir hrel hdirs hhas (hB ▸ hn)
  have hs := hbatch.staged n hn
  rw [if_neg (by simpa using List.ne_nil_of_mem hn)] at hrest
  obtain ⟨u, w₂, hcheck, hrest⟩ := Act.runOn_bind_eq_ok hrest
  have hw₂ := readOnly_checkUnsignPermitted _ _ _ w _ w₂ hcheck
  subst w₂
  -- the processing passes leave the last jar under the name without the prefix
  obtain ⟨r₁, w₃, hphase, hrest⟩ := Act.runOn_ite_bind_eq_ok hrest
  obtain ⟨hproc, -, -, -, hconf₃, -⟩ := processingPasses_eq_ok hdir hbatch hfiles hphase
  obtain ⟨x, J, hx, hJ, hJ₃⟩ := processingPasses_bytes hdir hbatch hfiles hphase n hn X hX
  -- packing, with pack200, puts the last pack beside it and keeps the jar
  obtain ⟨r₂, w₄, hpackph, hrest⟩ := Act.runOn_ite_bind_eq_ok hrest
  obtain ⟨-, -, hconf₄, -⟩ := packingPass_eq_ok hdir hbatch hproc hpackph
  obtain ⟨P, hP, hP₄⟩ : ∃ P, tk.Chain (if s.isPack200 then [.pack200] else []) (J, J) (P, J) ∧
      (s.isPack200 = true → w₄.disk.bytesAt (dir.names ++ [unprefixed n ++ s.packExtension]) = some P) := by
    by_cases hp : s.isPack200 = true
    · rw [if_pos hp] at hpackph ⊢
      obtain ⟨P, hP, hbytes⟩ := packPass_bytes hdir hbatch hproc hpackph n hn J hJ₃
      exact ⟨P, Toolkit.chain_cons_iff.2 ⟨P, hP, by simp⟩, fun _ => hbytes⟩
    · rw [if_neg hp]
      exact ⟨J, by simp, fun h => absurd h hp⟩
  have hout : unprefixed n ∉ B.map fun m => unprefixed m ++ s.packExtension := by
    simp only [List.mem_map, not_exists, not_and]
    exact fun m _ => append_pack_ne_jar s _ hs.jar
  have hJ₄ : w₄.disk.bytesAt (dir.names ++ [unprefixed n]) = some J := by
    rw [hconf₄.bytesAt hout (jar_ne_scratch hs.jar)]
    exact hJ₃
  -- clearing the scratch directory keeps both
  obtain ⟨u', w₅, hclear, hret⟩ := Act.runOn_bind_eq_ok hrest
  obtain ⟨-, hconf₅, -⟩ := clearScratch_eq_ok hdir hclear
  simp only [Act.runOn_pure, Prod.mk.injEq, Except.ok.injEq] at hret
  obtain ⟨-, rfl⟩ := hret
  have hdirs₅ : ∀ y, w₅.disk.DirsTo (dir.names ++ [y]) := fun y =>
    hconf₅.keeps_dirsTo (hconf₄.keeps_dirsTo (hconf₃.dirsTo hdirs hhas y))
  refine ⟨x, P, J, hx, ?_, ?_, fun hp => ?_⟩
  · unfold Settings.passTasks
    exact hJ.append hP
  · refine read_push_of_bytesAt hdir hrel hs.goodName_unprefixed (hdirs₅ _) ?_
    rw [hconf₅.bytesAt List.not_mem_nil (jar_ne_scratch hs.jar)]
    exact hJ₄
  · refine read_push_of_bytesAt hdir hrel (hs.goodName_unprefixed_packed s) (hdirs₅ _) ?_
    rw [hconf₅.bytesAt List.not_mem_nil (append_pack_ne_scratch s _)]
    exact hP₄ hp

end Legacy

end JarDeploy
