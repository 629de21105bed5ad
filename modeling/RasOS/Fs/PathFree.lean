import RasOS.Fs.PathParts
import RasOS.Memory.PagingRuns

set_option autoImplicit false

/-! # Freeing a path

What `pathparser_parse` allocates is a root, and for each part of the path a structure and a name.
`pathparser_free` gives each of them back once; no function of the kernel calls it. -/

namespace RasOS

open Machine

variable {α : Type}

/-! ## Chains -/

/-- The objects of the chain of parts at a pointer, in the order in which they are freed. -/
inductive ChainOwns (s : Kernel) : UInt32 → List UInt32 → Prop
  | nil : ChainOwns s 0 []
  | cons (ptr : UInt32) (part : PathPart) (name : List UInt8) (ptrs : List UInt32)
      (hpart : s.live ptr = some (pathPartK.inj part)) (hname : s.live part.part = some (pathNameK.inj name))
      (hrest : ChainOwns s part.next ptrs) : ChainOwns s ptr (part.part :: ptr :: ptrs)

/-- The loop of `pathparser_free` frees the objects of the chain. By induction on the chain: what a turn
frees is not among the objects of the turns after it. -/
theorem pathparserFreeLoop_chain {s : Kernel} (hwf : s.WF) {ptr : UInt32} {ptrs : List UInt32}
    (h : ChainOwns s ptr ptrs) :
    ∀ (fuel : Nat) (t : Kernel), (∀ q ∈ ptrs, t.live q = s.live q) → ptrs.Nodup → ptrs.length < 2 * fuel →
      pathparserFreeLoop fuel ptr t = some ((), ptrs.foldl freed t) := by
  induction h with
  | nil =>
      intro fuel t _ _ hfuel
      cases fuel with
      | zero => simp at hfuel
      | succ fuel => rfl
  | cons ptr part name ptrs hpart hname _ ih =>
      intro fuel t hsame hnodup hfuel
      simp only [List.length_cons] at hfuel
      simp only [List.nodup_cons, List.mem_cons, not_or] at hnodup
      obtain ⟨⟨hne, hname_not⟩, hptr_not, hnodup⟩ := hnodup
      cases fuel with
      | zero => omega
      | succ fuel =>
          have hpart' : t.live ptr = some (pathPartK.inj part) := by
            rw [hsame ptr (by simp)]
            exact hpart
          have hname' : t.live part.part = some (pathNameK.inj name) := by
            rw [hsame part.part (by simp)]
            exact hname
          have hleft : (freed t part.part).live ptr = some (pathPartK.inj part) := by
            rw [freed_live_of_ne t (Ne.symm hne)]
            exact hpart'
          rw [pathparserFreeLoop, if_neg (hwf.ne_zero hpart), bind_of_some (load_of_live hpart'),
            bind_of_some (kfree_of_live hname'), bind_of_some (kfree_of_live hleft)]
          apply ih fuel _ _ hnodup (by omega)
          intro q hq
          have hq1 : q ≠ part.part := fun heq => hname_not (heq ▸ hq)
          have hq2 : q ≠ ptr := fun heq => hptr_not (heq ▸ hq)
          rw [freed_live_of_ne _ hq2, freed_live_of_ne _ hq1]
          exact hsame q (by simp [hq])

/-! ## What the parser takes -/

section Parse

variable {s0 s : Kernel} {P : UInt32 → Prop}

/-- A new object of one block, filled in. -/
theorem Lent.ensures_new {β : Type} {k : Kind Obj α} {size : UInt32} {zero a : α} {f : UInt32 → KernelM β}
    {Q : β → Kernel → Prop} (hwf : s0.WF) (h : Lent s0 P s) (hone : blocksFor size = 1) (hroom : 0 < freeCount s.heap)
    (hf : ∀ ptr s', ¬ P ptr → Lent s0 (fun q => q = ptr ∨ P q) s' → s'.live ptr = some (k.inj a) →
      (∀ q, q ≠ ptr → s'.live q = s.live q) → freeCount s'.heap + 1 = freeCount s.heap → Ensures (f ptr) s' Q) :
    Ensures (kzalloc k size zero >>= fun ptr => storeUnchecked k ptr a >>= fun _ => f ptr) s Q := by
  obtain ⟨ptr, s1, hrun, hne, -, hfree, hlive, hcount⟩ := kzalloc_one k size zero h.wf hone hroom
  have hcases := kzalloc_cases h.wf hrun
  rw [ensures_bind_of_some hrun]
  have hnot : ¬ P ptr := by
    intro hP
    obtain ⟨o, ho⟩ := h.live ptr hP
    rw [hfree] at ho
    cases ho
  have hlent := h.alloc hwf hone hcases hne
  rw [storeUnchecked_of_ne hne, ensures_bind_of_some (store_of_live hlive a)]
  apply hf ptr _ hnot (hlent.write k (Or.inl rfl) a) (Kind.write_self ..) _ hcount
  intro q hq
  have hsame : s1.live q = s.live q := by
    cases hcases with
    | null hnone => rfl
    | fresh b ptr hpos hend hrun hptr hne hfree => exact Kind.write_of_ne _ _ _ hq
  exact (Kind.write_of_ne _ _ _ hq).trans hsame

/-- A block that is taken and given back at once. -/
theorem ensures_alloc_free {β : Type} {k : Kind Obj α} {size : UInt32} {zero : α} {f : KernelM β}
    {Q : β → Kernel → Prop} (hwf : s.WF) (hclean : CleanHeap s.heap) (hone : blocksFor size = 1)
    (hroom : 0 < freeCount s.heap) (hf : Ensures f s Q) :
    Ensures (kzalloc k size zero >>= fun ptr => kfreeUnchecked k ptr >>= fun _ => f) s Q := by
  obtain ⟨ptr, s1, hrun, hne, -, hfree, hlive, -⟩ := kzalloc_one k size zero hwf hone hroom
  have hlent := (Lent.refl hwf).alloc hwf hone (kzalloc_cases hwf hrun) hne
  have hback : freed s1 ptr = s := by
    apply (hlent.free hwf hclean (Or.inl rfl)).returned hwf
    intro q hq
    exact hq.2.elim hq.1 id
  rw [ensures_bind_of_some hrun, kfreeUnchecked_of_ne hne, ensures_bind_of_some (kfree_of_live hlive), hback]
  exact hf

/-- `get_next_path_part` takes a block for the name, unless the component is empty. -/
theorem getNextPathPart_lent (hwf : s0.WF) (hclean : CleanHeap s0.heap) (h : Lent s0 P s) (path : List UInt8)
    (hroom : 0 < freeCount s.heap) :
    Ensures (getNextPathPart path) s fun r s' => r.2 = (path.dropWhile (· ≠ SLASH)).drop 1 ∧
      ((r.1 = 0 ∧ s' = s) ∨ (path.takeWhile (· ≠ SLASH) ≠ [] ∧
        r.1 ≠ 0 ∧ ¬ P r.1 ∧ Lent s0 (fun q => q = r.1 ∨ P q) s' ∧ freeCount s'.heap + 1 = freeCount s.heap ∧
        (∃ name, s'.live r.1 = some (pathNameK.inj name)) ∧ ∀ q, q ≠ r.1 → s'.live q = s.live q)) := by
  have hone : blocksFor 128 = 1 := by decide
  unfold getNextPathPart
  by_cases hnil : path.takeWhile (· ≠ SLASH) = []
  · simp only [hnil, if_true]
    exact ensures_alloc_free h.wf (h.clean hwf hclean) hone hroom (Ensures.pure ⟨rfl, Or.inl ⟨rfl, rfl⟩⟩)
  · simp only [hnil, if_false]
    by_cases hlong : (path.takeWhile (· ≠ SLASH)).length ≥ RASOS_PATH_MAX_LEN
    · simp only [if_pos hlong]
      exact Ensures.bind (Q := fun _ _ => True) (fun _ _ _ => trivial) fun _ _ _ => Ensures.stop
    · simp only [if_neg hlong]
      refine h.ensures_new hwf hone hroom fun ptr s' hnot hlent hlive hsame hcount => ?_
      exact Ensures.pure ⟨rfl, Or.inr ⟨hnil, hlent.wf.ne_zero hlive, hnot, hlent, hcount, ⟨_, hlive⟩, hsame⟩⟩

/-- A new part: its name and the structure have been taken, and the part before it points to it. -/
structure PartAdded (s0 s : Kernel) (P : UInt32 → Prop) (last : UInt32) (part name : UInt32) (s' : Kernel) :
    Prop where
  lent : Lent s0 (fun q => q = part ∨ q = name ∨ P q) s'
  part_new : ¬ P part
  name_new : ¬ P name
  ne : name ≠ part
  part_live : s'.live part = some (pathPartK.inj { part := name, next := 0 })
  name_live : ∃ bytes, s'.live name = some (pathNameK.inj bytes)
  linked : ∀ p, s.live last = some (pathPartK.inj p) → s'.live last = some (pathPartK.inj { p with next := part })
  other : ∀ q, P q → q ≠ last → s'.live q = s.live q

theorem parsePathPart_lent (hwf : s0.WF) (hclean : CleanHeap s0.heap) (h : Lent s0 P s) {last : UInt32}
    (hlast : last = 0 ∨ P last) (path : List UInt8) (hroom : 2 * (partsOf path).length + 1 ≤ freeCount s.heap) :
    Ensures (parsePathPart last path) s fun r s' => (r.1 = 0 ∧ s' = s) ∨
      (r.1 ≠ 0 ∧ 2 * (partsOf r.2).length + 1 ≤ freeCount s'.heap ∧ ∃ name, PartAdded s0 s P last r.1 name s') := by
  have hone : blocksFor SIZEOF_PATH_PART = 1 := by decide
  unfold parsePathPart
  refine Ensures.bind (getNextPathPart_lent hwf hclean h path (by omega)) ?_
  rintro ⟨name, rest⟩ s1 ⟨rfl, hname⟩
  dsimp only at hname ⊢
  rcases hname with ⟨h0, rfl⟩ | ⟨hnil, hne, hnot, hlent, hcount, ⟨bytes, hbytes⟩, hsame⟩
  · rw [if_pos h0]
    exact Ensures.pure (Or.inl ⟨rfl, rfl⟩)
  · rw [if_neg hne]
    rw [partsOf_eq, if_neg hnil, List.length_cons] at hroom
    refine hlent.ensures_new hwf hone (by omega) fun part s2 hnew hlent2 hpart hsame2 hcount2 => ?_
    have hleft : 2 * (partsOf ((path.dropWhile (· ≠ SLASH)).drop 1)).length + 1 ≤ freeCount s2.heap := by omega
    rw [not_or] at hnew
    have hold : ∀ q, P q → s2.live q = s.live q := by
      intro q hq
      have hq1 : q ≠ part := fun heq => hnew.2 (heq ▸ hq)
      have hq2 : q ≠ name := fun heq => hnot (heq ▸ hq)
      rw [hsame2 q hq1, hsame q hq2]
    have hbytes2 : s2.live name = some (pathNameK.inj bytes) := by
      rw [hsame2 name (Ne.symm hnew.1)]
      exact hbytes
    by_cases h0 : last = 0
    · rw [if_pos h0]
      refine Ensures.pure (Or.inr ⟨hlent2.wf.ne_zero hpart, hleft, name, hlent2, hnew.2, hnot, Ne.symm hnew.1, hpart,
        ⟨bytes, hbytes2⟩, ?_, fun q hq _ => hold q hq⟩)
      intro p hp
      exact absurd h0 (h.wf.ne_zero hp)
    · -- the part before is one of those taken
      have hP : P last := hlast.resolve_left h0
      rw [if_neg h0]
      intro r s' hrun
      obtain ⟨p, s3, hload, hstore⟩ := bind_eq_some.mp hrun
      obtain ⟨hp, rfl⟩ := load_eq_some.mp hload
      rw [bind_of_some (store_of_live hp _)] at hstore
      obtain ⟨rfl, rfl⟩ := pure_eq_some.mp hstore
      have hpart_ne : part ≠ last := fun heq => hnew.2 (heq ▸ hP)
      have hname_ne : name ≠ last := fun heq => hnot (heq ▸ hP)
      refine Or.inr ⟨hlent2.wf.ne_zero hpart, hleft, name, hlent2.write pathPartK (Or.inr (Or.inr hP)) _, hnew.2, hnot,
        Ne.symm hnew.1, ?_, ⟨bytes, ?_⟩, ?_, ?_⟩
      · exact (Kind.write_of_ne _ _ _ hpart_ne).trans hpart
      · exact (Kind.write_of_ne _ _ _ hname_ne).trans hbytes2
      · intro p' hp'
        rw [← hold last hP, hp] at hp'
        obtain rfl := pathPartK.inj_injective (Option.some.inj hp')
        exact Kind.write_self ..
      · intro q hq hqlast
        exact (Kind.write_of_ne _ _ _ hqlast).trans (hold q hq)

/-- What the turns of the loop have taken, as the objects of the chain behind `last`. -/
structure ChainAdded (s0 s : Kernel) (P : UInt32 → Prop) (last : UInt32) (ptrs : List UInt32) (s' : Kernel) :
    Prop where
  lent : Lent s0 (fun q => q ∈ ptrs ∨ P q) s'
  nodup : ptrs.Nodup
  new : ∀ q ∈ ptrs, ¬ P q
  chain : ∃ p next, s.live last = some (pathPartK.inj p) ∧
    s'.live last = some (pathPartK.inj { p with next := next }) ∧ ChainOwns s' next ptrs
  other : ∀ q, P q → q ≠ last → s'.live q = s.live q

/-- One turn and the turns behind it. -/
theorem PartAdded.chain {s' s'' : Kernel} {last part name : UInt32} {ptrs : List UInt32} {p : PathPart}
    (hP : P last) (hlast : s.live last = some (pathPartK.inj p)) (h : PartAdded s0 s P last part name s')
    (hrest : ChainAdded s0 s' (fun q => q = part ∨ q = name ∨ P q) part ptrs s'') :
    ChainAdded s0 s P last (name :: part :: ptrs) s'' := by
  obtain ⟨p', next, hpart', hpart'', howns⟩ := hrest.chain
  have hp' : p' = { part := name, next := 0 } := pathPartK.inj_injective (Option.some.inj (hpart'.symm.trans h.part_live))
  rw [hp'] at hpart''
  have hname_not : name ∉ ptrs := fun hmem => hrest.new name hmem (Or.inr (Or.inl rfl))
  have hpart_not : part ∉ ptrs := fun hmem => hrest.new part hmem (Or.inl rfl)
  have hlast_part : last ≠ part := fun heq => h.part_new (heq ▸ hP)
  obtain ⟨bytes, hbytes⟩ := h.name_live
  have hbytes'' : s''.live name = some (pathNameK.inj bytes) := by
    rw [hrest.other name (Or.inr (Or.inl rfl)) h.ne]
    exact hbytes
  refine ⟨hrest.lent.congr fun q => ?_, ?_, ?_, ⟨p, part, hlast, ?_, ?_⟩, ?_⟩
  · simp only [List.mem_cons]
    tauto
  · simp only [List.nodup_cons, List.mem_cons, not_or]
    exact ⟨⟨h.ne, hname_not⟩, hpart_not, hrest.nodup⟩
  · intro q hq hPq
    rcases List.mem_cons.mp hq with rfl | hq
    · exact h.name_new hPq
    rcases List.mem_cons.mp hq with rfl | hq
    · exact h.part_new hPq
    · exact hrest.new q hq (Or.inr (Or.inr hPq))
  · rw [hrest.other last (Or.inr (Or.inr hP)) hlast_part]
    exact h.linked p hlast
  · exact .cons part { part := name, next := next } bytes ptrs hpart'' hbytes'' howns
  · intro q hq hqlast
    have hqpart : q ≠ part := fun heq => h.part_new (heq ▸ hq)
    rw [hrest.other q (Or.inr (Or.inr hq)) hqpart]
    exact h.other q hq hqlast

/-- **What the loop takes, it links.** By induction on the turns. -/
theorem pathparserLoop_lent (hwf : s0.WF) (hclean : CleanHeap s0.heap) :
    ∀ (fuel : Nat) (path : List UInt8) (last : UInt32) (p : PathPart) (s : Kernel) (P : UInt32 → Prop),
      Lent s0 P s → P last → s.live last = some (pathPartK.inj p) → p.next = 0 →
      2 * (partsOf path).length + 1 ≤ freeCount s.heap →
      Ensures (pathparserLoop fuel last path) s fun _ s' =>
        ∃ ptrs, ptrs.length ≤ 2 * fuel ∧ ChainAdded s0 s P last ptrs s' := by
  intro fuel
  induction fuel with
  | zero => exact fun _ _ _ _ _ _ _ _ _ _ => Ensures.stop
  | succ fuel ih =>
      intro path last p s P h hP hlast hnext hroom
      rw [pathparserLoop, if_neg (h.wf.ne_zero hlast)]
      refine Ensures.bind (parsePathPart_lent hwf hclean h (Or.inr hP) path hroom) ?_
      rintro ⟨part, rest⟩ s1 (⟨h0, rfl⟩ | ⟨-, hleft, name, hadded⟩)
      · -- nothing is left of the path
        have hdone : ChainAdded s0 s1 P last [] s1 := by
          refine ⟨h.congr fun q => by simp, List.nodup_nil, fun q hq => absurd hq List.not_mem_nil,
            ⟨p, 0, hlast, ?_, .nil⟩, fun _ _ _ => rfl⟩
          rw [hlast, ← hnext]
        dsimp only at h0
        cases fuel with
        | zero => exact Ensures.stop
        | succ fuel =>
            dsimp only
            rw [pathparserLoop, if_pos h0]
            exact Ensures.pure ⟨[], Nat.zero_le _, hdone⟩
      · refine (ih rest part _ s1 _ hadded.lent (Or.inl rfl) hadded.part_live rfl hleft).mono ?_
        rintro _ s2 ⟨ptrs, hlen, hrest⟩
        refine ⟨name :: part :: ptrs, ?_, hadded.chain hP hlast hrest⟩
        simp only [List.length_cons]
        omega

end Parse

/-! ## Round trip -/

/-- The objects of a parsed path, in the order in which `pathparser_free` frees them. -/
structure PathOwns (s0 s : Kernel) (root : UInt32) (ptrs : List UInt32) : Prop where
  lent : Lent s0 (fun q => q = root ∨ q ∈ ptrs) s
  nodup : ptrs.Nodup
  root_not : root ∉ ptrs
  length : ptrs.length < 2 * 25601
  chain : ∃ r, s.live root = some (pathRootK.inj r) ∧ ChainOwns s r.first ptrs

/-- Freeing a path gives back what it owns, and that is all that was taken. -/
theorem PathOwns.free {s0 s : Kernel} {root : UInt32} {ptrs : List UInt32} (hwf : s0.WF)
    (hclean : CleanHeap s0.heap) (h : PathOwns s0 s root ptrs) : pathparserFree root s = some ((), s0) := by
  obtain ⟨r, hroot, hchain⟩ := h.chain
  have hloop := pathparserFreeLoop_chain h.lent.wf hchain 25601 s (fun _ _ => rfl) h.nodup h.length
  have hlent := h.lent.freeAll hwf hclean ptrs s _ h.nodup fun q hq => Or.inr hq
  have hkept : ∀ (l : List UInt32) (t : Kernel), root ∉ l → (l.foldl freed t).live root = t.live root := by
    intro l
    induction l with
    | nil => exact fun _ _ => rfl
    | cons q l ih =>
        intro t hnot
        rw [List.mem_cons, not_or] at hnot
        rw [List.foldl_cons, ih _ hnot.2, freed_live_of_ne t hnot.1]
  have hroot' : (ptrs.foldl freed s).live root = some (pathRootK.inj r) := by
    rw [hkept ptrs s h.root_not]
    exact hroot
  have hback : freed (ptrs.foldl freed s) root = s0 := by
    apply (hlent.free hwf hclean ⟨h.root_not, Or.inl rfl⟩).returned hwf
    rintro q ⟨hq, hnot, hq' | hq'⟩
    · exact hq hq'
    · exact hnot hq'
  rw [pathparserFree, bind_of_some (load_of_live hroot), bind_of_some hloop, kfree_of_live hroot', hback]

/-- The end of `pathparser_parse`, from the first part on. -/
theorem pathparserRest_owns {s0 s : Kernel} (hwf : s0.WF) (hclean : CleanHeap s0.heap) {root : UInt32}
    {r : PathRoot} (h : Lent s0 (fun q => q = root) s) (hroot : s.live root = some (pathRootK.inj r))
    (path : List UInt8) (hroom : 2 * (partsOf path).length + 1 ≤ freeCount s.heap) :
    Ensures (parsePathPart 0 path >>= fun first => if first.1 = 0 then pure 0 else do
      let r ← load pathRootK root
      store pathRootK root { r with first := first.1 }
      let next ← parsePathPart first.1 first.2
      pathparserLoop (RASOS_PATH_MAX_LEN + 1) next.1 next.2
      return root) s fun r s' => (r = 0 ∧ s' = s) ∨ (r = root ∧ ∃ ptrs, PathOwns s0 s' root ptrs) := by
  refine Ensures.bind (parsePathPart_lent hwf hclean h (Or.inl rfl) path hroom) ?_
  rintro ⟨first, rest⟩ s1 (⟨h0, rfl⟩ | ⟨hne, hleft, name, hadded⟩)
  · dsimp only at h0 ⊢
    rw [if_pos h0]
    exact Ensures.pure (Or.inl ⟨rfl, rfl⟩)
  · dsimp only at hne hleft hadded ⊢
    rw [if_neg hne]
    have hroot1 : s1.live root = some (pathRootK.inj r) := by
      rw [hadded.other root rfl (h.wf.ne_zero hroot)]
      exact hroot
    rw [ensures_bind_of_some (load_of_live hroot1), ensures_bind_of_some (store_of_live hroot1 _)]
    have hlent2 := hadded.lent.write pathRootK (Or.inr (Or.inr rfl)) { r with first := first }
    have hfirst_ne : first ≠ root := hadded.part_new
    have hname_ne : name ≠ root := hadded.name_new
    have hleft2 : 2 * (partsOf rest).length + 1 ≤ freeCount
      ({ s1 with live := pathRootK.write s1.live root { r with first := first } } : Kernel).heap := hleft
    generalize hs2 : ({ s1 with live := pathRootK.write s1.live root { r with first := first } } : Kernel) = s2
      at hlent2 hleft2 ⊢
    have hlive2 : ∀ q, q ≠ root → s2.live q = s1.live q := by
      intro q hq
      rw [← hs2]
      exact Kind.write_of_ne _ _ _ hq
    have hroot2 : s2.live root = some (pathRootK.inj { r with first := first }) := by
      rw [← hs2]
      exact Kind.write_self ..
    -- the turn in front of the loop is a turn of the loop
    have hturn : (parsePathPart first rest >>= fun next =>
          pathparserLoop (RASOS_PATH_MAX_LEN + 1) next.1 next.2 >>= fun _ => (pure root : KernelM UInt32))
        = pathparserLoop (RASOS_PATH_MAX_LEN + 1 + 1) first rest >>= fun _ => pure root := by
      rw [pathparserLoop, if_neg hne, bind_assoc]
    rw [hturn]
    refine Ensures.bind (pathparserLoop_lent hwf hclean _ rest first _ s2 _ hlent2 (Or.inl rfl)
      ((hlive2 first hfirst_ne).trans hadded.part_live) rfl hleft2) ?_
    rintro _ s3 ⟨ptrs, hlen, hrest⟩
    obtain ⟨p, next, hp, hp3, howns⟩ := hrest.chain
    have hp' := (hlive2 first hfirst_ne).symm.trans hp
    rw [hadded.part_live] at hp'
    obtain rfl := pathPartK.inj_injective (Option.some.inj hp')
    obtain ⟨bytes, hbytes⟩ := hadded.name_live
    have hbytes3 : s3.live name = some (pathNameK.inj bytes) := by
      rw [hrest.other name (Or.inr (Or.inl rfl)) hadded.ne, hlive2 name hname_ne]
      exact hbytes
    have hfirst_not : first ∉ ptrs := fun hmem => hrest.new first hmem (Or.inl rfl)
    have hname_not : name ∉ ptrs := fun hmem => hrest.new name hmem (Or.inr (Or.inl rfl))
    have hroot_not : root ∉ ptrs := fun hmem => hrest.new root hmem (Or.inr (Or.inr rfl))
    refine Ensures.pure (Or.inr ⟨rfl, name :: first :: ptrs, ?_, ?_, ?_, ?_, { r with first := first }, ?_, ?_⟩)
    · refine hrest.lent.congr fun q => ?_
      simp only [List.mem_cons]
      tauto
    · simp only [List.nodup_cons, List.mem_cons, not_or]
      exact ⟨⟨hadded.ne, hname_not⟩, hfirst_not, hrest.nodup⟩
    · simp only [List.mem_cons, not_or]
      exact ⟨Ne.symm hname_ne, Ne.symm hfirst_ne, hroot_not⟩
    · have hmax : RASOS_PATH_MAX_LEN = 128 := rfl
      simp only [List.length_cons]
      omega
    · rw [hrest.other root (Or.inr (Or.inr rfl)) (Ne.symm hfirst_ne)]
      exact hroot2
    · exact .cons first { part := name, next := next } bytes ptrs hp3 hbytes3 howns

/-- **What the parser takes**, when there is room for it. From a path that is not valid, nothing; where it gives
up behind that, the root, which no pointer is left to; else what the root it returns owns. -/
theorem pathparserParse_owns {s : Kernel} (hwf : s.WF) (hclean : CleanHeap s.heap) (path : List UInt8)
    (hroom : isValidPath path = true → 2 * (partsOf (path.drop 3)).length + 2 ≤ freeCount s.heap) :
    Ensures (pathparserParse path) s fun root s' =>
      (root = 0 ∧ isValidPath path = false ∧ s' = s) ∨
      (root = 0 ∧ isValidPath path = true ∧ ∃ lost, Lent s (fun q => q = lost) s') ∨
      (root ≠ 0 ∧ ∃ ptrs, PathOwns s s' root ptrs) := by
  have hone : blocksFor SIZEOF_PATH_ROOT = 1 := by decide
  unfold pathparserParse
  by_cases hvalid : isValidPath path = true
  swap
  · rw [Bool.not_eq_true] at hvalid
    refine Ensures.ite (fun _ => Ensures.pure (Or.inl ⟨rfl, hvalid, rfl⟩)) fun _ => ?_
    rw [getDriveFromPath_invalid hvalid]
    exact Ensures.pure (Or.inl ⟨rfl, hvalid, rfl⟩)
  obtain ⟨hlen, -⟩ := isValidPath_eq_true.mp hvalid
  obtain ⟨hdrive, hnonneg⟩ := getDriveFromPath_valid hvalid
  rw [if_neg (Nat.not_lt.mpr hlen), hdrive]
  dsimp only
  rw [if_neg hnonneg, createRoot]
  simp only [bind_assoc, pure_bind]
  have hroom' := hroom hvalid
  refine (Lent.refl hwf).ensures_new hwf hone (by omega) fun root s1 _ hlent hlive _ hcount => ?_
  have hlent1 : Lent s (fun q => q = root) s1 := hlent.congr fun q => by rw [or_false]
  rw [if_neg (hlent.wf.ne_zero hlive)]
  refine (pathparserRest_owns hwf hclean hlent1 hlive _ (by omega)).mono ?_
  rintro r s' (⟨rfl, rfl⟩ | ⟨rfl, ptrs, howns⟩)
  · exact Or.inr (Or.inl ⟨rfl, hvalid, root, hlent1⟩)
  · obtain ⟨r', hr', -⟩ := howns.chain
    exact Or.inr (Or.inr ⟨howns.lent.wf.ne_zero hr', ptrs, howns⟩)

/-- **`pathparser_free` undoes `pathparser_parse`**: when there is room for the parts of a valid path, the parser
returns a root for it, and the root is freed with all that belongs to it: the kernel is in the state it was in
before the path was parsed. A valid path without a part costs a block, which no pointer is left to. -/
theorem pathparserFree_restores {s : Kernel} (hwf : s.WF) (hclean : CleanHeap s.heap) (path : List UInt8)
    (hroom : isValidPath path = true → 2 * (partsOf (path.drop 3)).length + 2 ≤ freeCount s.heap) :
    Total (pathparserParse path) s fun root s' =>
      (root ≠ 0 ↔ isValidPath path = true ∧ partsOf (path.drop 3) ≠ []) ∧
      (root ≠ 0 → pathparserFree root s' = some ((), s)) ∧
      (root = 0 → (s' = s ↔ isValidPath path = false)) := by
  obtain ⟨root, s', hrun, hwf', hroot⟩ := pathparserParse_spec hwf path
  have hiff : root ≠ 0 ↔ isValidPath path = true ∧ partsOf (path.drop 3) ≠ [] := by
    by_cases haccepted : isValidPath path = true ∧ partsOf (path.drop 3) ≠ []
    · have hroom' := hroom haccepted.1
      have hpos := List.length_pos_of_ne_nil haccepted.2
      rw [if_pos ⟨haccepted.1, haccepted.2, by omega⟩] at hroot
      obtain ⟨r, hr, -⟩ := hroot
      exact iff_of_true (hwf'.ne_zero hr) haccepted
    · rw [if_neg fun h => haccepted ⟨h.1, h.2.1⟩] at hroot
      exact iff_of_false (not_not.mpr hroot) haccepted
  refine ⟨root, s', hrun, hiff, ?_, ?_⟩
  · intro hne
    rcases pathparserParse_owns hwf hclean path hroom root s' hrun with ⟨h0, -⟩ | ⟨h0, -⟩ | ⟨-, ptrs, howns⟩
    · exact absurd h0 hne
    · exact absurd h0 hne
    · exact howns.free hwf hclean
  · intro h0
    rcases pathparserParse_owns hwf hclean path hroom root s' hrun with
      ⟨-, hvalid, rfl⟩ | ⟨-, hvalid, lost, hlent⟩ | ⟨hne, -⟩
    · exact iff_of_true rfl hvalid
    · refine iff_of_false ?_ (by rw [hvalid]; decide)
      rintro rfl
      obtain ⟨o, ho⟩ := hlent.live lost rfl
      rw [hlent.fresh lost rfl] at ho
      cases ho
    · exact absurd h0 hne

/-- The path `0:/ab/c`, on a fresh heap. -/
theorem pathparserFree_restores_abc :
    Total (pathparserParse [0x30, 0x3A, 0x2F, 0x61, 0x62, 0x2F, 0x63]) freshKernel fun root s' =>
      root ≠ 0 ∧ pathparserFree root s' = some ((), freshKernel) := by
  have hparts : isValidPath [0x30, 0x3A, 0x2F, 0x61, 0x62, 0x2F, 0x63] = true ∧
      partsOf [0x61, 0x62, 0x2F, 0x63] = [[0x61, 0x62], [0x63]] := by decide
  have hroom : 2 * (partsOf [0x61, 0x62, 0x2F, 0x63]).length + 2 ≤ freeCount freshKernel.heap := by
    rw [hparts.2, freshKernel_freeCount]
    decide
  have hrestores := pathparserFree_restores freshKernel_wf (bareKernel_clean 25600)
    [0x30, 0x3A, 0x2F, 0x61, 0x62, 0x2F, 0x63] fun _ => hroom
  refine hrestores.mono ?_
  rintro root s' ⟨hiff, hfree, -⟩
  have hne : root ≠ 0 := hiff.mpr ⟨hparts.1, by show partsOf [0x61, 0x62, 0x2F, 0x63] ≠ []; rw [hparts.2]; decide⟩
  exact ⟨hne, hfree hne⟩

end RasOS
