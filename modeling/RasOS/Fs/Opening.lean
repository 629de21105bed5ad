import RasOS.Fs.Tree

set_option autoImplicit false

/-! # Opening a file, with room for it

`fopen` parses its path, walks along it and fills in a descriptor. With enough free blocks, and on a tree
whose directories on the way can be loaded, it gets to its end without touching anything at null. -/

namespace RasOS

open Machine Traced HeapEvent

variable {α : Type} {image : Nat → Sector} {priv : FatPrivate}

/-! ## Parsing -/

/-- A store through a pointer that is null or live changes nothing but the object. -/
theorem total_storeUnchecked {k : Kind Obj α} {ptr : UInt32} {s : Kernel} (a : α)
    (h : ptr = 0 ∨ ∃ b, s.live ptr = some (k.inj b)) :
    Total (storeUnchecked k ptr a) s fun _ s' => s'.heap = s.heap := by
  by_cases h0 : ptr = 0
  · subst h0
    rw [storeUnchecked_null]
    exact total_pure.mpr rfl
  · obtain ⟨b, hb⟩ := h.resolve_left h0
    rw [storeUnchecked_of_ne h0]
    exact ⟨(), _, store_of_live hb a, rfl⟩

/-- The blocks that `n` requests for one block each leave. -/
structure Used (n : Nat) (s s' : Kernel) : Prop where
  count : freeCount s'.heap = freeCount s.heap - n
  spacious : ∀ k, Spacious s.heap (n + k) → Spacious s'.heap k

theorem Used.trans {m n : Nat} {s s1 s' : Kernel} (h : Used m s s1) (h' : Used n s1 s') :
    Used (m + n) s s' := by
  refine ⟨by rw [h'.count, h.count]; omega, fun k hk => h'.spacious k (h.spacious _ ?_)⟩
  rw [← Nat.add_assoc]
  exact hk

theorem Used.congr {n : Nat} {s s1 s' : Kernel} (h : Used n s s1) (hheap : s'.heap = s1.heap) :
    Used n s s' := by
  refine ⟨by rw [hheap]; exact h.count, fun k hk => ?_⟩
  rw [hheap]
  exact h.spacious k hk

theorem Kzalloc.used {k : Kind Obj α} {size ptr : UInt32} {zero : α} {s s' : Kernel} (hwf : s.WF)
    (h : Kzalloc k size zero s ptr s') (hone : blocksFor size = 1) : Used 1 s s' := by
  refine ⟨?_, fun n hn => h.spacious (n := n) (by rw [hone]; exact hn)⟩
  by_cases h0 : ptr = 0
  · have hfull := (noRoom_one_iff hone).mp ((h.null_iff hwf).mp h0)
    cases h with
    | null _ => omega
    | fresh b ptr hpos hend hrun hptr hne hfree hleast => exact absurd h0 hne
  · have hcount := h.freeCount hwf h0
    omega

/-- A part of a path is read: its name takes a block; the buffer for an empty one is given back. -/
theorem sound_getNextPathPart {s : Kernel} (hwf : s.WF) {path : List UInt8}
    (hlen : path.length < RASOS_PATH_MAX_LEN)
    (hbuffer : path.takeWhile (· ≠ SLASH) = [] → 0 < freeCount s.heap) :
    Sound Met (Trace.getNextPathPart path) s fun r s' =>
      if path.takeWhile (· ≠ SLASH) = [] then ∀ k, Spacious s.heap (1 + k) → Spacious s'.heap k
      else Used 1 s s' ∧ (r.1 = 0 ↔ freeCount s.heap = 0) := by
  have hone : blocksFor 128 = 1 := by decide
  have hle : (path.takeWhile (· ≠ SLASH)).length ≤ path.length := (List.takeWhile_sublist _).length_le
  obtain ⟨ptr, s1, hrun, hcases⟩ := kzalloc_spec pathNameK 128 [] hwf
  have hused := hcases.used hwf hone
  have hnull := (hcases.null_iff hwf).trans (noRoom_one_iff hone)
  unfold Trace.getNextPathPart
  refine Sound.bind_of_some hrun ?_
  by_cases hnil : path.takeWhile (· ≠ SLASH) = []
  · have hne : ptr ≠ 0 := mt hnull.mp (by have := hbuffer hnil; omega)
    have hfree : (Trace.kfree pathNameK ptr).erase s1 = some ((), freed s1 ptr) := by
      rw [Trace.erase_kfree]
      exact kfree_of_live (hcases.live hne).2
    dsimp only
    rw [if_pos hnil]
    simp only [if_pos hnil]
    refine (Sound.emit (Q := fun _ s' => s1 = s') hne rfl).bind ?_
    rintro _ _ rfl
    rw [Trace.kfreeUnchecked_of_ne hne]
    refine Sound.bind_of_run hfree (always_kfree _ _ s1) (Sound.pure fun k hk => ?_)
    exact (hused.spacious k hk).heapFree ptr
  · have hlive : ptr = 0 ∨ ∃ b, s1.live ptr = some (pathNameK.inj b) := by
      by_cases h0 : ptr = 0
      · exact Or.inl h0
      · exact Or.inr ⟨_, (hcases.live h0).2⟩
    dsimp only
    rw [if_neg hnil, if_neg (by omega)]
    simp only [if_neg hnil]
    refine Sound.bind_lift (total_storeUnchecked _ hlive) fun _ s2 hheap => ?_
    exact Sound.pure ⟨hused.congr hheap, hnull⟩

/-- What reading a part and linking it leaves: the part takes two blocks. -/
def PartTaken (s : Kernel) (path : List UInt8) (part : UInt32) (s' : Kernel) : Prop :=
  if path.takeWhile (· ≠ SLASH) = [] then ∀ k, Spacious s.heap (1 + k) → Spacious s'.heap k
  else Used 2 s s' ∧ (part = 0 ↔ freeCount s.heap < 2)

theorem sound_parsePathPart {s : Kernel} (hwf : s.WF) {last : UInt32} {path : List UInt8}
    (hlast : last = 0 ∨ ∃ p, s.live last = some (pathPartK.inj p)) (hlen : path.length < RASOS_PATH_MAX_LEN)
    (hbuffer : path.takeWhile (· ≠ SLASH) = [] → 0 < freeCount s.heap) :
    Sound Met (Trace.parsePathPart last path) s fun r s' => PartTaken s path r.1 s' := by
  have hone : blocksFor SIZEOF_PATH_PART = 1 := by decide
  have hspec : Ensures (Trace.getNextPathPart path).erase s fun r s' => s'.WF ∧
      (r.1 = 0 ↔ path.takeWhile (· ≠ SLASH) = [] ∨ freeCount s.heap = 0) ∧ KeptBut 0 s s' := by
    rw [Trace.erase_getNextPathPart]
    refine (getNextPathPart_spec hwf hlen).ensures.mono ?_
    rintro r s' ⟨-, hr⟩
    split at hr
    · rename_i hnil
      exact ⟨hr.2.1, iff_of_true hr.1 (Or.inl hnil), hr.2.2⟩
    · rename_i hnil
      refine ⟨(hr.since hwf).wf, ?_, hr.keptBut hwf⟩
      rw [or_iff_right hnil]
      exact (not_iff_not.mp (hr.ne_zero_iff.trans (Nat.pos_iff_ne_zero)))
  unfold Trace.parsePathPart
  refine ((sound_getNextPathPart hwf hlen hbuffer).and_ensures hspec).bind ?_
  rintro ⟨name, rest⟩ s1 ⟨hroom, hwf1, hname, hkept⟩
  dsimp only at hroom hname ⊢
  unfold PartTaken
  by_cases hnil : path.takeWhile (· ≠ SLASH) = []
  · -- the buffer for the end of the path has been given back
    rw [if_pos hnil] at hroom
    rw [if_pos (hname.mpr (Or.inl hnil))]
    refine Sound.pure ?_
    rw [if_pos hnil]
    exact hroom
  rw [if_neg hnil] at hroom
  obtain ⟨hused, hnull⟩ := hroom
  simp only [if_neg hnil]
  by_cases h0 : name = 0
  · -- no block for the name
    have hfull := hnull.mp h0
    rw [if_pos h0]
    refine Sound.pure ⟨⟨?_, fun k hk => ?_⟩, iff_of_true rfl (by omega)⟩
    · rw [hused.count]
      omega
    · exact hused.spacious k (hk.mono (by omega))
  -- the part is null when the name has taken the last block
  have hpos : ¬ freeCount s.heap = 0 := mt hnull.mpr h0
  obtain ⟨part, s2, hrun2, hcases2⟩ := kzalloc_spec pathPartK SIZEOF_PATH_PART {} hwf1
  have hused2 := hused.trans (hcases2.used hwf1 hone)
  have hnull2 := (hcases2.null_iff hwf1).trans (noRoom_one_iff hone)
  have hcount1 := hused.count
  have hpart : part = 0 ↔ freeCount s.heap < 2 := by
    rw [hnull2]
    omega
  have hlive2 : part = 0 ∨ ∃ b, s2.live part = some (pathPartK.inj b) := by
    by_cases h0 : part = 0
    · exact Or.inl h0
    · exact Or.inr ⟨_, (hcases2.live h0).2⟩
  rw [if_neg h0]
  refine Sound.bind_of_some hrun2 ?_
  by_cases hlast0 : last = 0
  · refine Sound.bind_lift (total_storeUnchecked _ hlive2) fun _ s3 hheap => ?_
    rw [if_pos hlast0]
    exact Sound.pure ⟨hused2.congr hheap, hpart⟩
  · obtain ⟨p, hp⟩ := hlast.resolve_left hlast0
    have hp2 := (hcases2.since hwf1).object _ _ (hkept _ _ hlast0 hp)
    have hother : part ≠ last := by
      rintro rfl
      obtain ⟨hfree, -⟩ := hcases2.live hlast0
      rw [hkept _ _ hlast0 hp] at hfree
      cases hfree
    -- whatever the part is, writing it leaves the part before
    have hstored : Total (storeUnchecked pathPartK part { part := name, next := 0 }) s2 fun _ s3 =>
        s3.heap = s2.heap ∧ s3.live last = some (pathPartK.inj p) := by
      by_cases hpart0 : part = 0
      · rw [hpart0, storeUnchecked_null]
        exact total_pure.mpr ⟨rfl, hp2⟩
      · obtain ⟨b, hb⟩ := hlive2.resolve_left hpart0
        rw [storeUnchecked_of_ne hpart0]
        exact ⟨(), _, store_of_live hb _, rfl, (Kind.write_of_ne _ _ _ hother.symm).trans hp2⟩
    refine Sound.bind_lift hstored fun _ s3 h3 => ?_
    rw [if_neg hlast0]
    refine Sound.bind_of_some (load_of_live h3.2) (Sound.bind_of_some (store_of_live h3.2 _) ?_)
    exact Sound.pure ⟨hused2.congr h3.1, hpart⟩

/-- What is left behind the parts of the rest of a path: nothing when they do not fit. -/
structure PartsTaken (s : Kernel) (path : List UInt8) (s' : Kernel) : Prop where
  full : freeCount s.heap < 2 * (partsOf path).length → freeCount s'.heap = 0
  spacious : ∀ k, Spacious s.heap (2 * (partsOf path).length + 1 + k) → Spacious s'.heap k

/-- The first part, and then the others. -/
theorem PartTaken.parts {s s1 s' : Kernel} {path : List UInt8} {part : UInt32} (h : PartTaken s path part s1)
    (hempty : path.takeWhile (· ≠ SLASH) = [] → part = 0)
    (hrest : if part = 0 then s' = s1 else PartsTaken s1 ((path.dropWhile (· ≠ SLASH)).drop 1) s') :
    PartsTaken s path s' := by
  unfold PartTaken at h
  by_cases hnil : path.takeWhile (· ≠ SLASH) = []
  · have hparts : partsOf path = [] := by rw [partsOf_eq, if_pos hnil]
    rw [if_pos hnil] at h
    rw [if_pos (hempty hnil)] at hrest
    subst hrest
    refine ⟨fun hlt => ?_, fun k hk => h k (hk.mono ?_)⟩
    · rw [hparts, List.length_nil] at hlt
      omega
    · omega
  · have hparts : (partsOf path).length = (partsOf ((path.dropWhile (· ≠ SLASH)).drop 1)).length + 1 := by
      rw [partsOf_eq, if_neg hnil, List.length_cons]
    rw [if_neg hnil] at h
    obtain ⟨hused, hpart⟩ := h
    have hcount := hused.count
    by_cases h0 : part = 0
    · rw [if_pos h0] at hrest
      subst hrest
      have hfew := hpart.mp h0
      exact ⟨fun _ => by omega, fun k hk => hused.spacious k (hk.mono (by omega))⟩
    · rw [if_neg h0] at hrest
      have hmany : ¬ freeCount s.heap < 2 := mt hpart.mpr h0
      refine ⟨fun hlt => hrest.full (by omega), fun k hk => hrest.spacious k (hused.spacious _ ?_)⟩
      exact hk.mono (by omega)

/-- The rest of a path is linked behind a part. The buffer for the end is there unless the parts have
taken just what there was. -/
theorem sound_pathparserLoop : ∀ (fuel : Nat) (path : List UInt8) (last : UInt32) (s : Kernel), s.WF →
    0 < fuel → (last ≠ 0 → (∃ p, s.live last = some (pathPartK.inj p)) ∧ path.length < RASOS_PATH_MAX_LEN ∧
      (partsOf path).length + 1 < fuel ∧ freeCount s.heap ≠ 2 * (partsOf path).length) →
    Sound Met (Trace.pathparserLoop fuel last path) s fun _ s' =>
      if last = 0 then s' = s else PartsTaken s path s' := by
  intro fuel
  induction fuel with
  | zero => exact fun _ _ _ _ hfuel => absurd hfuel (Nat.lt_irrefl 0)
  | succ fuel ih =>
      intro path last s hwf _ hready
      rw [Trace.pathparserLoop]
      by_cases h0 : last = 0
      · rw [if_pos h0]
        refine Sound.pure ?_
        rw [if_pos h0]
      obtain ⟨hlast, hlen, hfuel, hcount⟩ := hready h0
      rw [if_neg h0]
      have hbuffer : path.takeWhile (· ≠ SLASH) = [] → 0 < freeCount s.heap := by
        intro hnil
        rw [partsOf_eq, if_pos hnil, List.length_nil] at hcount
        omega
      have hspec := (parsePathPart_spec hwf (Or.inr hlast) hlen).ensures
      rw [← Trace.erase_parsePathPart] at hspec
      refine ((sound_parsePathPart hwf (Or.inr hlast) hlen hbuffer).and_ensures hspec).bind ?_
      rintro ⟨part, rest⟩ s1 ⟨htaken, hwf1, -, rfl, hpart⟩
      dsimp only at htaken hpart ⊢
      have hempty : path.takeWhile (· ≠ SLASH) = [] → part = 0 := by
        intro hnil
        rw [if_neg fun h => h.1 hnil] at hpart
        exact hpart.1
      refine (ih _ part s1 hwf1 (by omega) fun hne => ?_).mono ?_
      · -- behind a part the rest is shorter by one, and two blocks fewer are free
        have hnil : path.takeWhile (· ≠ SLASH) ≠ [] := mt hempty hne
        have hparts : (partsOf path).length = (partsOf ((path.dropWhile (· ≠ SLASH)).drop 1)).length + 1 := by
          rw [partsOf_eq, if_neg hnil, List.length_cons]
        have hdrop : (path.dropWhile (· ≠ SLASH)).length ≤ path.length := (List.dropWhile_sublist _).length_le
        unfold PartTaken at htaken
        rw [if_neg hnil] at htaken
        obtain ⟨hused, hpart0⟩ := htaken
        have hcount1 := hused.count
        have hmany : ¬ freeCount s.heap < 2 := mt hpart0.mpr hne
        rw [if_pos ⟨hnil, by omega⟩] at hpart
        obtain ⟨q, -, -, hlive, -⟩ := hpart.2.parts
        exact ⟨⟨_, hlive⟩, by rw [List.length_drop]; omega, by omega, by omega⟩
      · intro _ s' hrest
        rw [if_neg h0]
        exact htaken.parts hempty hrest

/-- The blocks that parsing a valid path takes: the root, two for each part, and a buffer at the end. -/
def parseBlocks (path : List UInt8) : Nat := 2 * (partsOf (path.drop 3)).length + 2

/-- There is a buffer for the empty component at the end of a path, if the parser gets there: the root and
the parts have not taken just the blocks there are. -/
def BufferLeft (s : Kernel) (path : List UInt8) : Prop :=
  isValidPath path = true → freeCount s.heap ≠ 2 * (partsOf (path.drop 3)).length + 1

/-- **The parser never frees a null buffer while one is left for the end of the path.** -/
theorem sound_pathparserParse {s : Kernel} (hwf : s.WF) {path : List UInt8} (hbuffer : BufferLeft s path) :
    Sound Met (Trace.pathparserParse path) s fun _ s' => isValidPath path = true →
      (freeCount s.heap ≤ 2 * (partsOf (path.drop 3)).length → freeCount s'.heap = 0) ∧
        ∀ k, Spacious s.heap (parseBlocks path + k) → Spacious s'.heap k := by
  unfold Trace.pathparserParse parseBlocks
  by_cases hvalid : isValidPath path = true
  swap
  · -- there is no drive
    have hinvalid : isValidPath path = false := by simpa using hvalid
    simp only [hinvalid, Bool.false_eq_true, false_implies]
    by_cases hlong : path.length > RASOS_PATH_MAX_LEN
    · rw [if_pos hlong]
      exact Sound.pure trivial
    · rw [if_neg hlong, getDriveFromPath_invalid hinvalid]
      dsimp only
      rw [if_pos (by decide)]
      exact Sound.pure trivial
  have hcount := hbuffer hvalid
  have hlen := length_drop_lt hvalid
  have hshort := partsOf_length_le _ _ (Nat.le_refl (path.drop 3).length)
  obtain ⟨hdrive, hpos⟩ := getDriveFromPath_valid hvalid
  rw [if_neg (Nat.not_lt.mpr (isValidPath_eq_true.mp hvalid).1), hdrive]
  dsimp only
  rw [if_neg hpos]
  simp only [hvalid, true_implies]
  generalize path.drop 3 = rest at hcount hlen hshort ⊢
  -- the root
  obtain ⟨root, s1, hmade, hrun⟩ := createRoot_made hwf (((path.headD 0).toNat : Int) - 48)
  have hcount1 := hmade.count
  have hspacious1 : ∀ k, Spacious s.heap (1 + k) → Spacious s1.heap k := fun k => hmade.spacious (n := k)
  have hwf1 := (hmade.since hwf).wf
  refine Sound.bind_of_some hrun ?_
  by_cases h0 : root = 0
  · have hfull : ¬ 0 < freeCount s.heap := fun h => hmade.ne_zero_iff.mpr h h0
    rw [if_pos h0]
    exact Sound.pure ⟨fun _ => by omega, fun k hk => hspacious1 k (hk.mono (by omega))⟩
  have hroom := hmade.ne_zero_iff.mp h0
  obtain ⟨-, hroot1⟩ := hmade.live h0
  rw [if_neg h0]
  -- the first part
  have hbuffer1 : rest.takeWhile (· ≠ SLASH) = [] → 0 < freeCount s1.heap := by
    intro hnil
    rw [partsOf_eq, if_pos hnil, List.length_nil] at hcount
    omega
  have hspec1 := (parsePathPart_spec hwf1 (Or.inl rfl) hlen).ensures
  rw [← Trace.erase_parsePathPart] at hspec1
  refine ((sound_parsePathPart hwf1 (Or.inl rfl) hlen hbuffer1).and_ensures hspec1).bind ?_
  rintro ⟨first, rest1⟩ s2 ⟨htaken, hwf2, hkept2, rfl, hfirst⟩
  dsimp only at htaken hfirst ⊢
  have hempty : rest.takeWhile (· ≠ SLASH) = [] → first = 0 := by
    intro hnil
    rw [if_neg fun h => h.1 hnil] at hfirst
    exact hfirst.1
  have hdone : ∀ {s' : Kernel}, PartsTaken s1 rest s' →
      (freeCount s.heap ≤ 2 * (partsOf rest).length → freeCount s'.heap = 0) ∧
        ∀ k, Spacious s.heap (2 * (partsOf rest).length + 2 + k) → Spacious s'.heap k := by
    intro s' h
    refine ⟨fun hle => h.full (by omega), fun k hk => h.spacious k (hspacious1 _ (hk.mono ?_))⟩
    omega
  by_cases hfirst0 : first = 0
  · rw [if_pos hfirst0]
    exact Sound.pure (hdone (htaken.parts hempty (by rw [if_pos hfirst0])))
  rw [if_neg hfirst0]
  have hnil : rest.takeWhile (· ≠ SLASH) ≠ [] := mt hempty hfirst0
  have hparts : (partsOf rest).length = (partsOf ((rest.dropWhile (· ≠ SLASH)).drop 1)).length + 1 := by
    rw [partsOf_eq, if_neg hnil, List.length_cons]
  have hdrop : (rest.dropWhile (· ≠ SLASH)).length ≤ rest.length := (List.dropWhile_sublist _).length_le
  have hused := htaken
  unfold PartTaken at hused
  rw [if_neg hnil] at hused
  obtain ⟨hused, hfirst2⟩ := hused
  have hcount2 := hused.count
  have hmany : ¬ freeCount s1.heap < 2 := mt hfirst2.mpr hfirst0
  rw [if_pos ⟨hnil, by omega⟩] at hfirst
  obtain ⟨q, -, -, hlive, -⟩ := hfirst.2.parts
  have hroot2 := hkept2 root _ h0 hroot1
  refine Sound.bind_of_some (load_of_live hroot2) (Sound.bind_of_some (store_of_live hroot2 _) ?_)
  -- the other parts, as in a turn of the loop
  generalize hs3 : ({ s2 with live := pathRootK.write s2.live root _ } : Kernel) = s3
  have hheap3 : s3.heap = s2.heap := by rw [← hs3]
  have hlive3 : s3.live first = some (pathPartK.inj { part := q, next := 0 }) := by
    have hother : first ≠ root := by
      rintro rfl
      rw [hroot2] at hlive
      cases hlive
    rw [← hs3]
    exact (Kind.write_of_ne _ _ _ hother).trans hlive
  have hwf3 : s3.WF := by
    rw [← hs3]
    exact hwf2.write hroot2 _
  have hloop := sound_pathparserLoop (RASOS_PATH_MAX_LEN + 2) ((rest.dropWhile (· ≠ SLASH)).drop 1) first s3
    hwf3 (by omega) fun _ => ⟨⟨_, hlive3⟩, by rw [List.length_drop]; omega, by omega, by rw [hheap3]; omega⟩
  rw [Trace.pathparserLoop, if_neg hfirst0] at hloop
  rw [← bind_bind (g := fun _ => Pure.pure root)]
  refine hloop.bind fun _ s' hs' => Sound.pure (hdone (htaken.parts hempty ?_))
  rw [if_neg hfirst0] at hs' ⊢
  exact ⟨fun hlt => hs'.full (by rw [hheap3]; exact hlt), fun k hk => hs'.spacious k (by rw [hheap3]; exact hk)⟩

/-! ## The private data of a file -/

/-- What `fat16_open` returns: private data whose item stands for the entry the walk ends at, or an
error. -/
def PrivateMade (image : Nat → Sector) (out : WalkEnd) (r : UInt32) (s' : Kernel) : Prop :=
  match out with
  | .entry e => ISERR r = false ∧ ∃ item, s'.live r = some (fatFileDescriptorK.inj { item := item, pos := 0 }) ∧
      Stands image s' item e
  | _ => ISERR r = true

/-- **With room for the walk a file is opened.** -/
theorem sound_fat16Open {s : Kernel} {L : Listing} (h : TreeReady s image priv L) {path : UInt32}
    {names : List (List UInt8)} {cost k : Nat} {out : WalkEnd} (hchain : PathChain s path names)
    (hshort : names.length ≤ RASOS_PATH_MAX_LEN) (hwalk : WalkFrom image L names cost out) (hout : out ≠ .astray)
    (hroom : Spacious s.heap (1 + (cost + k))) :
    Sound Met (Trace.fat16Open path FILE_MODE_READ) s fun r s' =>
      Spacious s'.heap k ∧ PrivateMade image out r s' := by
  obtain ⟨ptr, s1, hrun, hne, hsince, hfree, hlive, hroom1⟩ :=
    kzalloc_spacious fatFileDescriptorK SIZEOF_FAT_FILE_DESCRIPTOR {} h.mounted.wf (by decide) hroom
  have hwalked := sound_getDirectoryEntry (h.grown hsince.grown) (hchain.grown hsince.grown) hshort hwalk hout hroom1
  unfold Trace.fat16Open
  rw [if_neg (not_not.mpr rfl)]
  refine Sound.bind_of_some hrun ?_
  rw [if_neg hne]
  refine hwalked.bind ?_
  rintro item s2 ⟨hgrown2, hroom2, hdelivered⟩
  have hlive2 := hgrown2.object _ _ hlive fun _ heq => Obj.noConfusion heq
  refine Sound.bind_of_some (store_of_live hlive2 _) ?_
  cases out with
  | astray => exact absurd rfl hout
  | null =>
      rw [if_pos (show item = 0 from hdelivered)]
      exact Sound.pure ⟨hroom2, ISERR_ERROR (by decide) (by decide)⟩
  | entry e =>
      have hstands : NewStands image s1 item e s2 := hdelivered
      rw [if_neg (hstands.stands.ne_zero hgrown2.wf)]
      refine Sound.bind_of_some (store_of_live (Kind.write_self ..) _) (Sound.pure ⟨hroom2, ?_, item, ?_, ?_⟩)
      · exact hgrown2.wf.not_iserr hlive2
      · exact Kind.write_self ..
      · refine hstands.stands.congr fun q o ho hkind => ?_
        have hother : q ≠ ptr := by
          rintro rfl
          rw [hlive2] at ho
          obtain rfl := Option.some.inj ho
          cases hkind
        exact (Kind.write_of_ne _ _ _ hother).trans ((Kind.write_of_ne _ _ _ hother).trans ho)

/-- Without a free block, or to write, no file is opened. -/
theorem sound_fat16Open_refused {s : Kernel} (hwf : s.WF) (path : UInt32) {mode : Nat}
    (h : mode ≠ FILE_MODE_READ ∨ freeCount s.heap = 0) :
    Sound Met (Trace.fat16Open path mode) s fun r _ => ISERR r = true := by
  have hone : blocksFor SIZEOF_FAT_FILE_DESCRIPTOR = 1 := by decide
  unfold Trace.fat16Open
  by_cases hmode : mode ≠ FILE_MODE_READ
  · rw [if_pos hmode]
    exact Sound.pure (ISERR_ERROR (by decide) (by decide))
  rw [if_neg hmode]
  obtain ⟨ptr, s1, hrun, hcases⟩ := kzalloc_spec fatFileDescriptorK SIZEOF_FAT_FILE_DESCRIPTOR {} hwf
  have hnull := ((hcases.null_iff hwf).trans (noRoom_one_iff hone)).mpr (h.resolve_left hmode)
  refine Sound.bind_of_some hrun ?_
  rw [if_pos hnull]
  exact Sound.pure (ISERR_ERROR (by decide) (by decide))

/-! ## When a file can be opened -/

/-- `fopen` returns before it looks anything up: the path is not valid, has no parts or no room, or there
is no such drive or file system, or the mode is not that for reading. -/
def Unwalked (s : Kernel) (filename mode_str : List UInt8) : Prop :=
  isValidPath filename = false ∨ partsOf (filename.drop 3) = [] ∨
    freeCount s.heap ≤ 2 * (partsOf (filename.drop 3)).length ∨
    diskGet ((filename.headD 0).toNat - 48) = false ∨ s.disk.filesystem = none ∨
    fileGetModeByString mode_str ≠ FILE_MODE_READ

/-- Opening a file comes to an end, at an entry or with nothing opened. Nothing is looked up, and the parser
has its buffer; or the walk does not go astray, and there is a free run as long as the parts of the path,
the items on the way, the private data and the descriptor. -/
inductive Opening (s : Kernel) (filename mode_str : List UInt8) : WalkEnd → Prop
  | unwalked (hbuffer : BufferLeft s filename) (h : Unwalked s filename mode_str) :
      Opening s filename mode_str .null
  | walked (image : Nat → Sector) (priv : FatPrivate) (L : Listing) (cost : Nat) (out : WalkEnd)
      (h : ¬ Unwalked s filename mode_str) (htree : TreeReady s image priv L)
      (hwalk : WalkFrom image L (partsOf (filename.drop 3)) cost out) (hout : out ≠ .astray)
      (hroom : Spacious s.heap (parseBlocks filename + (1 + (cost + 1)))) : Opening s filename mode_str out

/-- With room for the parts there is a buffer for the end of the path. -/
theorem BufferLeft.of_spacious {s : Kernel} {filename : List UInt8} {k : Nat}
    (hroom : Spacious s.heap (parseBlocks filename + k)) : BufferLeft s filename := by
  intro _
  have hcount := hroom.le_freeCount
  unfold parseBlocks at hcount
  omega

theorem Opening.buffer {s : Kernel} {filename mode_str : List UInt8} {out : WalkEnd}
    (h : Opening s filename mode_str out) : BufferLeft s filename := by
  cases h with
  | unwalked hbuffer h => exact hbuffer
  | walked image priv L cost out h htree hwalk hout hroom => exact .of_spacious hroom

/-- The parser has made a root with the first parts of a valid path, or returns null. -/
inductive RootMade (s : Kernel) (filename : List UInt8) (r : UInt32) (s' : Kernel) : Prop
  | null (h0 : r = 0) (h : ¬ (isValidPath filename = true ∧ partsOf (filename.drop 3) ≠ [] ∧ 3 ≤ freeCount s.heap)) :
      RootMade s filename r s'
  | made (root : PathRoot) (hvalid : isValidPath filename = true) (hparts : partsOf (filename.drop 3) ≠ [])
      (hroot : s'.live r = some (pathRootK.inj root))
      (hdrive : root.drive_number = (filename.headD 0).toNat - 48) (hfirst : root.first ≠ 0)
      (hchain : PathChain s' root.first ((partsOf (filename.drop 3)).take ((freeCount s.heap - 1) / 2))) :
      RootMade s filename r s'

/-- The parser's result, with room or without. -/
structure Parses (s : Kernel) (filename : List UInt8) (r : UInt32) (s' : Kernel) : Prop where
  run : (Trace.pathparserParse filename).erase s = some (r, s')
  met : ∀ e ∈ (Trace.pathparserParse filename).events s, e.Met
  grown : Grown s s'
  room : isValidPath filename = true →
    (freeCount s.heap ≤ 2 * (partsOf (filename.drop 3)).length → freeCount s'.heap = 0) ∧
      ∀ k, Spacious s.heap (parseBlocks filename + k) → Spacious s'.heap k
  root : RootMade s filename r s'

theorem parses {s : Kernel} (hwf : s.WF) {filename : List UInt8} (hbuffer : BufferLeft s filename) :
    ∃ r s', Parses s filename r s' := by
  obtain ⟨⟨r, s', hrun, hroom⟩, hmet⟩ := sound_pathparserParse hwf hbuffer
  have hrun' := hrun
  rw [Trace.erase_pathparserParse] at hrun'
  refine ⟨r, s', hrun, hmet, pathparserParse_grown hwf _ _ _ hrun', hroom, ?_⟩
  obtain ⟨hwf', hspec⟩ := (pathparserParse_spec hwf filename).ensures _ _ hrun'
  split at hspec
  · rename_i h
    obtain ⟨root, hroot, hdrive, hchain⟩ := hspec
    refine .made root h.1 h.2.1 hroot hdrive (hchain.ne_zero hwf' fun hnil => ?_) hchain
    have hlength := congrArg List.length hnil
    have hpos := List.length_pos_of_ne_nil h.2.1
    rw [List.length_take, List.length_nil] at hlength
    omega
  · exact .null hspec ‹_›

/-- **When nothing is looked up** the parser returns null, or one of the checks after it fails, or
`fat16_open` refuses. -/
theorem Parses.refused {s s' : Kernel} {filename mode_str : List UInt8} {r : UInt32} (h : Parses s filename r s')
    (hun : Unwalked s filename mode_str) {root : PathRoot} (hvalid : isValidPath filename = true)
    (hparts : partsOf (filename.drop 3) ≠ []) (hdrive : root.drive_number = (filename.headD 0).toNat - 48)
    (hget : ¬ (!diskGet root.drive_number) = true) (hfs : ¬ s'.disk.filesystem = none) :
    fileGetModeByString mode_str ≠ FILE_MODE_READ ∨ freeCount s'.heap = 0 := by
  have hdisk : s'.disk = s.disk := congrArg Statics.disk h.grown.statics
  rw [hdrive] at hget
  rw [hdisk] at hfs
  rcases hun with hinvalid | hnil | hfew | hnodrive | hnofs | hmode
  · rw [hvalid] at hinvalid
    cases hinvalid
  · exact absurd hnil hparts
  · exact Or.inr ((h.room hvalid).1 hfew)
  · rw [hnodrive] at hget
    exact absurd rfl hget
  · exact absurd hnofs hfs
  · exact Or.inl hmode

/-- **Else the path is there**, with all its parts, and the file can be opened. -/
theorem Parses.reaches {s s' : Kernel} {filename mode_str : List UInt8} {r : UInt32} {k : Nat} {L : Listing}
    (h : Parses s filename r s') (hwalked : ¬ Unwalked s filename mode_str) (htree : TreeReady s image priv L)
    (hroom : Spacious s.heap (parseBlocks filename + k)) : TreeReady s' image priv L ∧ Spacious s'.heap k ∧
      ∃ root, r ≠ 0 ∧ s'.live r = some (pathRootK.inj root) ∧ root.first ≠ 0 ∧
        (!diskGet root.drive_number) = false ∧ s'.disk.filesystem ≠ none ∧
        fileGetModeByString mode_str = FILE_MODE_READ ∧
        PathChain s' root.first (partsOf (filename.drop 3)) ∧
        (partsOf (filename.drop 3)).length ≤ RASOS_PATH_MAX_LEN := by
  have hdisk : s'.disk = s.disk := congrArg Statics.disk h.grown.statics
  have hcount := hroom.le_freeCount
  unfold parseBlocks at hcount
  unfold Unwalked at hwalked
  push Not at hwalked
  obtain ⟨hvalid, hparts, -, hget, hfs, hmode⟩ := hwalked
  have hvalid : isValidPath filename = true := by simpa using hvalid
  have hget : diskGet ((filename.headD 0).toNat - 48) = true := by simpa using hget
  have hlen := length_drop_lt hvalid
  have hshort := partsOf_length_le _ _ (Nat.le_refl (filename.drop 3).length)
  have hpos := List.length_pos_of_ne_nil hparts
  refine ⟨htree.grown h.grown, (h.room hvalid).2 k hroom, ?_⟩
  cases h.root with
  | null h0 hnot => exact absurd ⟨hvalid, hparts, by omega⟩ hnot
  | made root _ _ hroot hdrive hfirst hchain =>
      rw [List.take_of_length_le (by omega)] at hchain
      rw [hdisk]
      refine ⟨root, h.grown.wf.ne_zero hroot, hroot, hfirst, ?_, hfs, hmode, hchain, by omega⟩
      rw [hdrive, hget]
      rfl

end RasOS
