import Mathlib.Data.List.TakeWhile
import RasOS.Fs.Lookup
import RasOS.Fs.OneFile
import RasOS.Kernel.Room

set_option autoImplicit false

/-! # The parts of a path

Behind the drive a path is cut at its slashes. The parser takes the components up to the first empty
one as the parts; an empty component looks to it like the end of the path. -/

namespace RasOS

open Machine

/-! ## Components -/

/-- What lies between the slashes behind the drive. -/
def components (path : List UInt8) : List (List UInt8) := (path.drop 3).splitOn SLASH

/-- The components in front of the first empty one. -/
def partsOf (rest : List UInt8) : List (List UInt8) := (rest.splitOn SLASH).takeWhile (· ≠ [])

/-- A path from its drive number and its parts. -/
def renderPath (drive_number : Nat) (parts : List (List UInt8)) : List UInt8 :=
  UInt8.ofNat (48 + drive_number) :: COLON :: SLASH :: [SLASH].intercalate parts

/-- The first component and what lies behind its slash. -/
theorem partsOf_eq (rest : List UInt8) :
    partsOf rest = if rest.takeWhile (· ≠ SLASH) = [] then []
      else rest.takeWhile (· ≠ SLASH) :: partsOf ((rest.dropWhile (· ≠ SLASH)).drop 1) := by
  have hpart : SLASH ∉ rest.takeWhile (· ≠ SLASH) := by
    intro hmem
    have hne := List.mem_takeWhile_imp hmem
    simp at hne
  have hsplit : rest.takeWhile (· ≠ SLASH) ++ rest.dropWhile (· ≠ SLASH) = rest :=
    List.takeWhile_append_dropWhile
  unfold partsOf
  generalize rest.takeWhile (· ≠ SLASH) = part at hpart hsplit ⊢
  cases hrest : rest.dropWhile (· ≠ SLASH) with
  | nil =>
      rw [hrest, List.append_nil] at hsplit
      rw [← hsplit, List.splitOn_eq_singleton hpart, List.drop_nil, List.splitOn_nil, List.takeWhile_cons]
      by_cases hnil : part = []
      · simp [hnil]
      · simp [hnil]
  | cons c rest' =>
      have hc : c = SLASH := by
        have hfirst := List.head?_dropWhile_not (· ≠ SLASH) rest
        rw [hrest] at hfirst
        simpa using hfirst
      rw [hrest, hc] at hsplit
      rw [← hsplit, List.splitOn_append_cons_self_of_not_mem hpart, List.takeWhile_cons, List.drop_one,
        List.tail_cons]
      by_cases hnil : part = []
      · simp [hnil]
      · simp [hnil]

/-- There are fewer parts than bytes. -/
theorem partsOf_length_le : ∀ (n : Nat) (rest : List UInt8), rest.length ≤ n →
    (partsOf rest).length ≤ rest.length := by
  intro n
  induction n with
  | zero =>
      intro rest hn
      rw [List.length_eq_zero_iff.mp (Nat.le_zero.mp hn)]
      decide
  | succ n ih =>
      intro rest hn
      rw [partsOf_eq]
      split
      · exact Nat.zero_le _
      · rename_i hne
        have hpos := List.length_pos_of_ne_nil hne
        have hlength := congrArg List.length
          (List.takeWhile_append_dropWhile (p := (· ≠ SLASH)) (l := rest))
        rw [List.length_append] at hlength
        have hrest := ih ((rest.dropWhile (· ≠ SLASH)).drop 1)
          (by rw [List.length_drop]; omega)
        rw [List.length_drop] at hrest
        rw [List.length_cons]
        omega

/-! ## The chain of parts -/

/-- From `ptr` on the parts of these names are linked. -/
def PathChain (s : Kernel) : UInt32 → List (List UInt8) → Prop
  | ptr, [] => ptr = 0
  | ptr, name :: names => ∃ part, s.live ptr = some (pathPartK.inj part) ∧
      s.live part.part = some (pathNameK.inj name) ∧ PathChain s part.next names

/-- A chain has one list of names. -/
theorem PathChain.unique {s : Kernel} (hwf : s.WF) {names : List (List UInt8)} :
    ∀ {ptr : UInt32} {names' : List (List UInt8)}, PathChain s ptr names → PathChain s ptr names' →
      names = names' := by
  induction names with
  | nil =>
      intro ptr names' h h'
      cases names' with
      | nil => rfl
      | cons name names' =>
          obtain ⟨part, hpart, -⟩ := h'
          exact absurd h (hwf.ne_zero hpart)
  | cons name names ih =>
      intro ptr names' h h'
      obtain ⟨part, hpart, hname, hrest⟩ := h
      cases names' with
      | nil => exact absurd h' (hwf.ne_zero hpart)
      | cons name' names' =>
          obtain ⟨part', hpart', hname', hrest'⟩ := h'
          rw [hpart] at hpart'
          obtain rfl := pathPartK.inj_injective (Option.some.inj hpart')
          rw [hname] at hname'
          obtain rfl := pathNameK.inj_injective (Option.some.inj hname')
          rw [ih hrest hrest']

/-- The parts from `ptr` on are there in a later state. -/
theorem PathChain.grown {s s' : Kernel} (h : Grown s s') : ∀ {names : List (List UInt8)} {ptr : UInt32},
    PathChain s ptr names → PathChain s' ptr names := by
  intro names
  induction names with
  | nil => exact fun hchain => hchain
  | cons name names ih =>
      rintro ptr ⟨part, hpart, hname, hrest⟩
      exact ⟨part, h.object _ _ hpart fun _ heq => Obj.noConfusion heq,
        h.object _ _ hname fun _ heq => Obj.noConfusion heq, ih hrest⟩

theorem PathChain.ne_zero {s : Kernel} {names : List (List UInt8)} {ptr : UInt32}
    (h : PathChain s ptr names) (hwf : s.WF) (hnames : names ≠ []) : ptr ≠ 0 := by
  obtain ⟨name, names', rfl⟩ := List.exists_cons_of_ne_nil hnames
  obtain ⟨part, hpart, -⟩ := h
  exact hwf.ne_zero hpart

/-- The objects are as before, but for the one at `except`. -/
def KeptBut (except : UInt32) (s s' : Kernel) : Prop :=
  ∀ q o, q ≠ except → s.live q = some o → s'.live q = some o

/-- A new object is added to the others. -/
theorem Made.keptBut {α : Type} {k : Kind Obj α} {a : α} {s s' : Kernel} {ptr : UInt32} (h : Made k a s ptr s')
    (hwf : s.WF) : KeptBut 0 s s' := fun q o _ ho => (h.since hwf).object q o ho

/-- The buffer of an empty component is freed again, if there is one. -/
theorem kfreeUnchecked_new {α : Type} {k : Kind Obj α} {size ptr : UInt32} {zero : α} {s s1 : Kernel} (hwf : s.WF)
    (h : Kzalloc k size zero s ptr s1) :
    Total (kfreeUnchecked k ptr) s1 fun _ s' => s'.WF ∧ KeptBut 0 s s' := by
  have hsince := h.since hwf
  by_cases h0 : ptr = 0
  · refine ⟨(), { s1 with heap := heapFree s1.heap 0 }, ?_, hsince.wf.freeNull, fun q o _ ho => hsince.object q o ho⟩
    rw [kfreeUnchecked, if_pos h0]
  · obtain ⟨hfree, hlive⟩ := h.live h0
    refine ⟨(), freed s1 ptr, ?_, hsince.wf.free hlive, fun q o _ ho => ?_⟩
    · rw [kfreeUnchecked_of_ne h0]
      exact kfree_of_live hlive
    · exact (freed_live_of_ne s1 (Grown.ne_of_fresh hfree ho)).trans (hsince.object q o ho)

/-- `get_next_path_part` makes a name of the first component, unless it is empty. -/
theorem getNextPathPart_spec {s : Kernel} (hwf : s.WF) {path : List UInt8}
    (hlen : path.length < RASOS_PATH_MAX_LEN) :
    Total (getNextPathPart path) s fun r s' => r.2 = (path.dropWhile (· ≠ SLASH)).drop 1 ∧
      if path.takeWhile (· ≠ SLASH) = [] then r.1 = 0 ∧ s'.WF ∧ KeptBut 0 s s'
      else Made pathNameK (path.takeWhile (· ≠ SLASH)) s r.1 s' := by
  have hone : blocksFor 128 = 1 := by decide
  have hle : (path.takeWhile (· ≠ SLASH)).length ≤ path.length := (List.takeWhile_sublist _).length_le
  unfold getNextPathPart
  by_cases hnil : path.takeWhile (· ≠ SLASH) = []
  · simp only [hnil, if_true]
    obtain ⟨ptr, s1, hrun, hcases⟩ := kzalloc_spec pathNameK 128 [] hwf
    rw [total_bind_of_some hrun]
    exact (kfreeUnchecked_new hwf hcases).bind fun _ s2 h2 => total_pure.mpr ⟨rfl, rfl, h2⟩
  · simp only [hnil, if_false, if_neg (by omega : ¬ (path.takeWhile (· ≠ SLASH)).length ≥ RASOS_PATH_MAX_LEN)]
    obtain ⟨ptr, s1, hmade, hrun⟩ := made_new (k := pathNameK) [] (path.takeWhile (· ≠ SLASH)) hwf hone
      (f := fun ptr => Pure.pure (ptr, (path.dropWhile (· ≠ SLASH)).drop 1))
    exact (total_of_some hrun).mpr ⟨rfl, hmade⟩

/-- What `parse_path_part` leaves behind `last`: a part of the name `name`, in two blocks. -/
structure PartMade (s : Kernel) (last part : UInt32) (name : List UInt8) (s' : Kernel) : Prop where
  ne : part ≠ last
  new : s.live part = none
  room : freeCount s'.heap + 2 = freeCount s.heap
  parts : ∃ q, q ≠ part ∧ s.live q = none ∧ s'.live part = some (pathPartK.inj { part := q, next := 0 }) ∧
    s'.live q = some (pathNameK.inj name)
  link : ∀ p, s.live last = some (pathPartK.inj p) → s'.live last = some (pathPartK.inj { p with next := part })

/-- A name and a part have been made, and are not linked to anything. -/
theorem Made.part {s s1 s2 : Kernel} {last q part : UInt32} {name : List UInt8} (hwf : s.WF)
    (hname : Made pathNameK name s q s1) (hpart : Made pathPartK { part := q, next := 0 } s1 part s2)
    (hlast : last = 0 ∨ ∃ p, s.live last = some (pathPartK.inj p)) (hne : part ≠ 0) :
    part ≠ last ∧ q ≠ part ∧ q ≠ last ∧ s.live part = none ∧ s.live q = none ∧
      freeCount s2.heap + 2 = freeCount s.heap ∧ s2.live part = some (pathPartK.inj { part := q, next := 0 }) ∧
      s2.live q = some (pathNameK.inj name) := by
  have hsince := hname.since hwf
  have hroom1 := hpart.ne_zero_iff.mp hne
  have hcount1 := hname.count
  have hcount2 := hpart.count
  have hq0 : q ≠ 0 := hname.ne_zero_iff.mpr (by omega)
  obtain ⟨hqfree, hqlive⟩ := hname.live hq0
  obtain ⟨hfree1, hlive⟩ := hpart.live hne
  have hfree : s.live part = none := hsince.fresh hfree1
  have hold : ∀ r, s.live r = none → r ≠ 0 → r ≠ last := by
    rintro r hr hr0 rfl
    obtain ⟨p, hp⟩ := hlast.resolve_left hr0
    rw [hr] at hp
    cases hp
  have hother : q ≠ part := by
    rintro rfl
    rw [hqlive] at hfree1
    cases hfree1
  exact ⟨hold part hfree hne, hother, hold q hqfree hq0, hfree, hqfree, by omega, hlive,
    (hpart.since hsince.wf).object _ _ hqlive⟩

/-- `parse_path_part` makes a part of the first component and links it behind the last part; an empty
component and one for which there is no room end the chain. -/
theorem parsePathPart_spec {s : Kernel} (hwf : s.WF) {last : UInt32} {path : List UInt8}
    (hlast : last = 0 ∨ ∃ p, s.live last = some (pathPartK.inj p)) (hlen : path.length < RASOS_PATH_MAX_LEN) :
    Total (parsePathPart last path) s fun r s' =>
      s'.WF ∧ KeptBut last s s' ∧ r.2 = (path.dropWhile (· ≠ SLASH)).drop 1 ∧
      if path.takeWhile (· ≠ SLASH) ≠ [] ∧ 2 ≤ freeCount s.heap then
        r.1 ≠ 0 ∧ PartMade s last r.1 (path.takeWhile (· ≠ SLASH)) s'
      else
        r.1 = 0 ∧ ∀ p, p.next = 0 → s.live last = some (pathPartK.inj p) → s'.live last = some (pathPartK.inj p) := by
  have hone : blocksFor SIZEOF_PATH_PART = 1 := by decide
  unfold parsePathPart
  refine (getNextPathPart_spec hwf hlen).bind ?_
  rintro ⟨q, rest⟩ s1 ⟨rfl, hname⟩
  dsimp only at hname ⊢
  by_cases hnil : path.takeWhile (· ≠ SLASH) = []
  · -- the end of the path, or an empty component
    rw [if_pos hnil] at hname
    obtain ⟨rfl, hwf1, hkept1⟩ := hname
    rw [if_pos rfl]
    refine total_pure.mpr ⟨hwf1, fun r o _ ho => hkept1 r o (hwf.ne_zero ho) ho, rfl, ?_⟩
    rw [if_neg fun h => h.1 hnil]
    exact ⟨rfl, fun p _ hp => hkept1 _ _ (hwf.ne_zero hp) hp⟩
  rw [if_neg hnil] at hname
  have hsince1 := hname.since hwf
  have hcount1 := hname.count
  by_cases hq : q = 0
  · -- no block for the name
    have hfull : ¬ 0 < freeCount s.heap := fun h => hname.ne_zero_iff.mpr h hq
    rw [if_pos hq]
    refine total_pure.mpr ⟨hsince1.wf, fun r o _ ho => hsince1.object r o ho, rfl, ?_⟩
    rw [if_neg fun h => by omega]
    exact ⟨rfl, fun p _ hp => hsince1.object _ _ hp⟩
  rw [if_neg hq]
  obtain ⟨part, s2, hpart, hrun⟩ := made_new (k := pathPartK) {} { part := q, next := 0 } (f := fun part =>
    if last = 0 then (return (part, (path.dropWhile (· ≠ SLASH)).drop 1)) else do
      let last' ← load pathPartK last
      store pathPartK last { last' with next := part }
      return (part, (path.dropWhile (· ≠ SLASH)).drop 1)) hsince1.wf hone
  rw [total_of_eq hrun]
  have hsince2 := hpart.since hsince1.wf
  have hkept2 : ∀ r o, s.live r = some o → s2.live r = some o := fun r o ho =>
    hsince2.object r o (hsince1.object r o ho)
  have hroom1 := hname.ne_zero_iff.mp hq
  by_cases h0 : last = 0
  · -- the first part, with nothing to link it to
    rw [if_pos h0]
    refine total_pure.mpr ⟨hsince2.wf, fun r o _ ho => hkept2 r o ho, rfl, ?_⟩
    by_cases hpart0 : part = 0
    · have hfull : ¬ 0 < freeCount s1.heap := fun h => hpart.ne_zero_iff.mpr h hpart0
      rw [if_neg fun h => by omega]
      exact ⟨hpart0, fun p _ hp => hkept2 _ _ hp⟩
    · obtain ⟨hpl, hqp, -, hfree, hqfree, hcount, hlive, hqlive⟩ := hname.part hwf hpart hlast hpart0
      rw [if_pos ⟨hnil, by omega⟩]
      exact ⟨hpart0, hpl, hfree, hcount, ⟨q, hqp, hqfree, hlive, hqlive⟩, fun p hp => absurd h0 (hwf.ne_zero hp)⟩
  · -- the part before is written, also when the part is null
    obtain ⟨p, hp⟩ := hlast.resolve_left h0
    have hp2 := hkept2 _ _ hp
    have hsame : ∀ p', s.live last = some (pathPartK.inj p') → p = p' := by
      intro p' hp'
      rw [hp] at hp'
      exact pathPartK.inj_injective (Option.some.inj hp')
    rw [if_neg h0, total_load hp2, total_store hp2]
    refine total_pure.mpr ⟨hsince2.wf.write hp2 _, fun r o hr ho => ?_, rfl, ?_⟩
    · exact (Kind.write_of_ne _ _ _ hr).trans (hkept2 r o ho)
    by_cases hpart0 : part = 0
    · -- no block for the part: the chain stays as it was
      have hfull : ¬ 0 < freeCount s1.heap := fun h => hpart.ne_zero_iff.mpr h hpart0
      rw [if_neg fun h => by omega]
      refine ⟨hpart0, fun p' hnext hp' => ?_⟩
      obtain rfl := hsame p' hp'
      have hsame' : { p with next := part } = p := by
        rw [hpart0, ← hnext]
      rw [hsame']
      exact Kind.write_self ..
    · obtain ⟨hpl, hqp, hql, hfree, hqfree, hcount, hlive, hqlive⟩ := hname.part hwf hpart hlast hpart0
      rw [if_pos ⟨hnil, by omega⟩]
      refine ⟨hpart0, hpl, hfree, hcount, ⟨q, hqp, hqfree, ?_, ?_⟩, fun p' hp' => ?_⟩
      · exact (Kind.write_of_ne _ _ _ hpl).trans hlive
      · exact (Kind.write_of_ne _ _ _ hql).trans hqlive
      · obtain rfl := hsame p' hp'
        exact Kind.write_self ..

/-- **The loop links the parts of the rest behind the last part**, as many as there are pairs of blocks. By
induction on the turns: each one takes a component off the rest, and the chain from the new part is the one the
turns after it make. -/
theorem pathparserLoop_spec : ∀ (fuel : Nat) (path : List UInt8) (last q : UInt32) (name : List UInt8) (s : Kernel),
    s.WF → q ≠ last → s.live last = some (pathPartK.inj { part := q, next := 0 }) →
      s.live q = some (pathNameK.inj name) → path.length < RASOS_PATH_MAX_LEN →
      (partsOf path).length + 1 < fuel →
      Total (pathparserLoop fuel last path) s fun _ s' =>
        s'.WF ∧ KeptBut last s s' ∧ PathChain s' last (name :: (partsOf path).take (freeCount s.heap / 2)) := by
  intro fuel
  induction fuel with
  | zero =>
      intro path last q name s _ _ _ _ _ hfuel
      omega
  | succ fuel ih =>
      intro path last q name s hwf hne hlast hname hlen hfuel
      rw [pathparserLoop, if_neg (hwf.ne_zero hlast)]
      refine (parsePathPart_spec hwf (Or.inr ⟨_, hlast⟩) hlen).bind ?_
      rintro ⟨next, rest⟩ s1 ⟨hwf1, hkept1, rfl, hnext⟩
      dsimp only at hnext ⊢
      have hname1 : s1.live q = some (pathNameK.inj name) := hkept1 _ _ hne hname
      by_cases hmade : path.takeWhile (· ≠ SLASH) ≠ [] ∧ 2 ≤ freeCount s.heap
      · -- a component is taken off the rest, and two blocks are for it
        rw [if_pos hmade] at hnext
        obtain ⟨hnext0, hpart⟩ := hnext
        obtain ⟨q', hq', hqfree, hpart', hq'name⟩ := hpart.parts
        have hroom := hpart.room
        have hparts : partsOf path
            = path.takeWhile (· ≠ SLASH) :: partsOf ((path.dropWhile (· ≠ SLASH)).drop 1) := by
          rw [partsOf_eq, if_neg hmade.1]
        have htake : (partsOf path).take (freeCount s.heap / 2) = path.takeWhile (· ≠ SLASH) ::
            (partsOf ((path.dropWhile (· ≠ SLASH)).drop 1)).take (freeCount s1.heap / 2) := by
          rw [hparts, show freeCount s.heap / 2 = freeCount s1.heap / 2 + 1 by omega, List.take_succ_cons]
        rw [hparts, List.length_cons] at hfuel
        have hdrop : (path.dropWhile (· ≠ SLASH)).length ≤ path.length := (List.dropWhile_sublist _).length_le
        refine (ih _ next q' _ s1 hwf1 hq' hpart' hq'name (by rw [List.length_drop]; omega) (by omega)).mono ?_
        rintro _ s2 ⟨hwf2, hkept2, hchain⟩
        refine ⟨hwf2, fun r o hr ho => ?_, _, hkept2 _ _ hpart.ne.symm (hpart.link _ hlast), ?_, ?_⟩
        · exact hkept2 r o (Grown.ne_of_fresh hpart.new ho) (hkept1 r o hr ho)
        · exact hkept2 q _ (Grown.ne_of_fresh hpart.new hname) hname1
        · rw [htake]
          exact hchain
      · -- the end of the path, an empty component, or no room
        rw [if_neg hmade] at hnext
        obtain ⟨rfl, hkeep⟩ := hnext
        have htake : (partsOf path).take (freeCount s.heap / 2) = [] := by
          by_cases hnil : path.takeWhile (· ≠ SLASH) = []
          · rw [partsOf_eq, if_pos hnil, List.take_nil]
          · have hroom : ¬ 2 ≤ freeCount s.heap := fun h => hmade ⟨hnil, h⟩
            rw [show freeCount s.heap / 2 = 0 by omega, List.take_zero]
        obtain ⟨fuel', rfl⟩ : ∃ n, fuel = n + 1 := Nat.exists_eq_add_one.mpr (by omega)
        rw [pathparserLoop, if_pos rfl, htake]
        exact total_pure.mpr ⟨hwf1, hkept1, _, hkeep _ rfl hlast, hname1, rfl⟩

/-! ## The parser -/

theorem isValidPath_eq_true {path : List UInt8} : isValidPath path = true ↔
    path.length ≤ RASOS_PATH_MAX_LEN ∧ isDigit (path.headD 0) = true ∧
      path = path.headD 0 :: COLON :: SLASH :: path.drop 3 := by
  unfold isValidPath
  rcases path with _ | ⟨c, _ | ⟨c', _ | ⟨c'', rest⟩⟩⟩
  · simp [isDigit]
  · simp
  · simp
  · by_cases hlen : (c :: c' :: c'' :: rest).length > RASOS_PATH_MAX_LEN
    · rw [if_pos (Or.inl hlen)]
      exact iff_of_false Bool.false_ne_true fun h => absurd h.1 (Nat.not_le.mpr hlen)
    · have hshort : ¬ (c :: c' :: c'' :: rest).length < 3 := by simp
      rw [if_neg (not_or.mpr ⟨hlen, hshort⟩)]
      have hlen' : rest.length + 1 + 1 < RASOS_PATH_MAX_LEN := Nat.not_lt.mp hlen
      by_cases hdigit : isDigit c = true
      · simp [hdigit, hlen']
      · simp [hdigit]

/-- A path that is not valid has no drive. -/
theorem getDriveFromPath_invalid {path : List UInt8} (h : isValidPath path = false) :
    getDriveFromPath path = (- EBADPATH, path) := by
  rw [getDriveFromPath, h]
  rfl

/-- The drive of a valid path is a digit. -/
theorem getDriveFromPath_valid {path : List UInt8} (h : isValidPath path = true) :
    getDriveFromPath path = (((path.headD 0).toNat : Int) - 48, path.drop 3) ∧
      ¬ ((path.headD 0).toNat : Int) - 48 < 0 := by
  obtain ⟨-, hdigit, -⟩ := isValidPath_eq_true.mp h
  constructor
  · rw [getDriveFromPath, h]
    rfl
  · rw [isDigit, Bool.and_eq_true, decide_eq_true_iff, UInt8.le_iff_toNat_le] at hdigit
    have h48 : (48 : UInt8).toNat = 48 := rfl
    omega

/-- A valid path is short enough for the buffers of the parser. -/
theorem length_drop_lt {path : List UInt8} (h : isValidPath path = true) :
    (path.drop 3).length < RASOS_PATH_MAX_LEN := by
  obtain ⟨hlen, -, hpath⟩ := isValidPath_eq_true.mp h
  have hthree : 3 ≤ path.length := by
    rw [hpath]
    simp
  rw [List.length_drop]
  omega

theorem createRoot_made {s : Kernel} (hwf : s.WF) (drive_number : Int) :
    ∃ root s', Made pathRootK { drive_number := drive_number, first := 0 } s root s' ∧
      createRoot drive_number s = some (root, s') := by
  have hone : blocksFor SIZEOF_PATH_ROOT = 1 := by decide
  obtain ⟨root, s', hmade, hrun⟩ := made_new (k := pathRootK) {} { drive_number := drive_number, first := 0 }
    (f := Pure.pure) hwf hone
  exact ⟨root, s', hmade, hrun⟩

/-- **The parser makes the root of a valid path and links its parts**, as many as there is room for. Without room
for the root and one part there is no result. -/
theorem pathparserParse_spec {s : Kernel} (hwf : s.WF) (path : List UInt8) :
    Total (pathparserParse path) s fun r s' => s'.WF ∧
      if isValidPath path = true ∧ partsOf (path.drop 3) ≠ [] ∧ 3 ≤ freeCount s.heap then
        ∃ root, s'.live r = some (pathRootK.inj root) ∧ root.drive_number = (path.headD 0).toNat - 48 ∧
          PathChain s' root.first ((partsOf (path.drop 3)).take ((freeCount s.heap - 1) / 2))
      else r = 0 := by
  unfold pathparserParse
  by_cases hlong : path.length > RASOS_PATH_MAX_LEN
  · rw [if_pos hlong]
    refine total_pure.mpr ⟨hwf, ?_⟩
    rw [if_neg fun h => absurd (isValidPath_eq_true.mp h.1).1 (Nat.not_le.mpr hlong)]
  rw [if_neg hlong]
  by_cases hvalid : isValidPath path = true
  swap
  · rw [getDriveFromPath_invalid (by simpa using hvalid)]
    dsimp only
    rw [if_pos (by decide)]
    exact total_pure.mpr ⟨hwf, by rw [if_neg fun h => hvalid h.1]⟩
  obtain ⟨hdrive, hnonneg⟩ := getDriveFromPath_valid hvalid
  have hdrop := length_drop_lt hvalid
  rw [hdrive]
  dsimp only
  rw [if_neg hnonneg]
  generalize path.drop 3 = rest at hdrop ⊢
  -- the root
  obtain ⟨root, s1, hmade, hrun⟩ := createRoot_made hwf (((path.headD 0).toNat : Int) - 48)
  have hsince1 := hmade.since hwf
  have hwf1 := hsince1.wf
  have hcount1 := hmade.count
  rw [total_bind_of_some hrun]
  by_cases hroot0 : root = 0
  · have hfull : ¬ 0 < freeCount s.heap := fun h => hmade.ne_zero_iff.mpr h hroot0
    rw [if_pos hroot0]
    exact total_pure.mpr ⟨hwf1, by rw [if_neg fun h => by omega]⟩
  rw [if_neg hroot0]
  have hroot1 := (hmade.live hroot0).2
  have hroom1 := hmade.ne_zero_iff.mp hroot0
  -- the first part
  refine (parsePathPart_spec hwf1 (Or.inl rfl) hdrop).bind ?_
  rintro ⟨first, rest'⟩ s2 ⟨hwf2, hkept2, rfl, hfirst⟩
  dsimp only at hfirst ⊢
  by_cases hpart : rest.takeWhile (· ≠ SLASH) ≠ [] ∧ 2 ≤ freeCount s1.heap
  swap
  · rw [if_neg hpart] at hfirst
    rw [if_pos hfirst.1]
    refine total_pure.mpr ⟨hwf2, ?_⟩
    rw [if_neg]
    rintro ⟨-, hparts, hroom⟩
    refine hpart ⟨fun hnil => hparts ?_, by omega⟩
    rw [partsOf_eq, if_pos hnil]
  rw [if_pos hpart] at hfirst
  obtain ⟨hne, hnew⟩ := hfirst
  obtain ⟨q, hq, hqfree, hlive, hname⟩ := hnew.parts
  have hcount2 := hnew.room
  have hparts : partsOf rest
      = rest.takeWhile (· ≠ SLASH) :: partsOf ((rest.dropWhile (· ≠ SLASH)).drop 1) := by
    rw [partsOf_eq, if_neg hpart.1]
  have hroot2 : s2.live root = some (pathRootK.inj _) := hkept2 _ _ hroot0 hroot1
  have hother : ∀ p o, s1.live p = none → s2.live p = some o →
      ∀ r, pathRootK.write s2.live root r p = some o := fun p o hp ho r =>
    (Kind.write_of_ne _ _ _ (Grown.ne_of_fresh hp hroot1).symm).trans ho
  rw [if_neg hne, total_load hroot2, total_store hroot2]
  -- the turn in front of the loop is a turn of the loop
  have hloop : (parsePathPart first ((rest.dropWhile (· ≠ SLASH)).drop 1) >>= fun r =>
        pathparserLoop (RASOS_PATH_MAX_LEN + 1) r.1 r.2 >>= fun _ => (Pure.pure root : KernelM UInt32))
      = pathparserLoop (RASOS_PATH_MAX_LEN + 1 + 1) first ((rest.dropWhile (· ≠ SLASH)).drop 1) >>=
        fun _ => Pure.pure root := by
    rw [pathparserLoop, if_neg hne, bind_assoc]
  refine (congrArg (fun x => Total x _ _) hloop).mpr ?_
  have hwf3 := hwf2.write (k := pathRootK) hroot2
    ({ drive_number := ((path.headD 0).toNat : Int) - 48, first := first } : PathRoot)
  have hle := partsOf_length_le _ _ (Nat.le_refl ((rest.dropWhile (· ≠ SLASH)).drop 1).length)
  have hdrop' : (rest.dropWhile (· ≠ SLASH)).length ≤ rest.length := (List.dropWhile_sublist _).length_le
  rw [List.length_drop] at hle
  refine (pathparserLoop_spec _ _ first q _ _ hwf3 hq (hother _ _ hnew.new hlive _)
    (hother _ _ hqfree hname _) (by rw [List.length_drop]; omega) (by omega)).bind ?_
  rintro _ s4 ⟨hwf4, hkept4, hchain⟩
  have haccepted : isValidPath path = true ∧ partsOf rest ≠ [] ∧ 3 ≤ freeCount s.heap :=
    ⟨hvalid, by rw [hparts]; exact List.cons_ne_nil _ _, by omega⟩
  refine total_pure.mpr ⟨hwf4, ?_⟩
  rw [if_pos haccepted]
  refine ⟨_, hkept4 root _ ?_ (Kind.write_self ..), rfl, ?_⟩
  · exact Grown.ne_of_fresh hnew.new hroot1
  · rw [hparts, show (freeCount s.heap - 1) / 2 = freeCount s2.heap / 2 + 1 by omega, List.take_succ_cons]
    exact hchain

/-! ## Round trips -/

/-- Joining in two steps. -/
theorem intercalate_append {names more : List (List UInt8)} (hne : names ≠ []) (hne' : more ≠ []) :
    [SLASH].intercalate (names ++ more)
      = [SLASH].intercalate names ++ SLASH :: [SLASH].intercalate more := by
  induction names with
  | nil => exact absurd rfl hne
  | cons name names ih =>
      cases names with
      | nil => rw [List.singleton_append, List.intercalate_cons_of_ne_nil hne', List.intercalate_singleton,
          List.append_assoc, List.singleton_append]
      | cons name' names =>
          have hrest : name' :: names ++ more ≠ [] := by simp
          rw [List.cons_append, List.intercalate_cons_of_ne_nil hrest, ih (List.cons_ne_nil _ _),
            List.intercalate_cons_cons, List.append_assoc, List.append_assoc, List.append_assoc]

theorem length_le_intercalate {names : List (List UInt8)} {name : List UInt8} (h : name ∈ names) :
    name.length ≤ ([SLASH].intercalate names).length := by
  induction names with
  | nil => exact absurd h List.not_mem_nil
  | cons first names ih =>
      cases names with
      | nil => rw [List.mem_singleton.mp h, List.intercalate_singleton]
      | cons second names =>
          rw [List.intercalate_cons_cons, List.length_append, List.length_append]
          rcases List.mem_cons.mp h with rfl | hrest
          · omega
          · have := ih hrest
            omega

/-- The parts of names that have been joined. -/
theorem partsOf_intercalate {names : List (List UInt8)} (hne : names ≠ [])
    (hnames : ∀ name ∈ names, name ≠ [] ∧ SLASH ∉ name) :
    partsOf ([SLASH].intercalate names) = names ∧ partsOf ([SLASH].intercalate names ++ [SLASH]) = names := by
  have hsplit : ([SLASH].intercalate names).splitOn SLASH = names :=
    List.splitOn_intercalate SLASH (fun name h => (hnames name h).2) hne
  have hall : names.takeWhile (· ≠ []) = names :=
    List.takeWhile_eq_self_iff.mpr fun name h => decide_eq_true (hnames name h).1
  unfold partsOf
  rw [List.splitOn_append_cons_self, List.splitOn_nil, hsplit, hall, and_iff_right rfl]
  rw [List.takeWhile_append_of_pos fun name h => decide_eq_true (hnames name h).1]
  simp

/-- **Joining the parts gives the rest of the path back**, up to a slash, exactly when no component but
the last is empty. -/
theorem intercalate_partsOf_iff {rest : List UInt8} (hne : partsOf rest ≠ []) :
    (rest = [SLASH].intercalate (partsOf rest) ∨ rest = [SLASH].intercalate (partsOf rest) ++ [SLASH]) ↔
      [] ∉ (rest.splitOn SLASH).dropLast := by
  have hback : [SLASH].intercalate (rest.splitOn SLASH) = rest := List.intercalate_splitOn SLASH
  have hsplit : partsOf rest ++ (rest.splitOn SLASH).dropWhile (· ≠ []) = rest.splitOn SLASH :=
    List.takeWhile_append_dropWhile
  have hparts : [] ∉ partsOf rest := fun h => by simpa using List.mem_takeWhile_imp h
  cases htail : (rest.splitOn SLASH).dropWhile (· ≠ []) with
  | nil =>
      rw [htail, List.append_nil] at hsplit
      rw [← hsplit] at hback ⊢
      exact iff_of_true (Or.inl hback.symm) fun h => hparts (List.mem_of_mem_dropLast h)
  | cons empty tail =>
      have hempty : empty = [] := by
        have hfirst := List.head?_dropWhile_not (· ≠ []) (rest.splitOn SLASH)
        rw [htail] at hfirst
        simpa using hfirst
      subst hempty
      rw [htail] at hsplit
      rw [← hsplit, intercalate_append hne (List.cons_ne_nil _ _)] at hback
      cases tail with
      | nil =>
          -- one slash at the end
          rw [List.intercalate_singleton] at hback
          rw [← hsplit, List.dropLast_concat]
          exact iff_of_true (Or.inr hback.symm) hparts
      | cons next tail =>
          rw [List.intercalate_cons_cons] at hback
          rw [← hsplit]
          refine iff_of_false (fun h => ?_) fun h => h ?_
          · have hlength := congrArg List.length hback
            simp only [List.length_append, List.length_cons, List.length_nil] at hlength
            rcases h with h | h
            · rw [← h] at hlength
              omega
            · have hlength' := congrArg List.length h
              simp only [List.length_append, List.length_cons, List.length_nil] at hlength'
              omega
          · rw [List.dropLast_append_of_ne_nil (List.cons_ne_nil _ _), List.dropLast_cons_of_ne_nil
              (List.cons_ne_nil _ _)]
            exact List.mem_append_right _ List.mem_cons_self

/-- **A rendered path is parsed into its parts.** With a slash at the end or without one, as long as
there is room for the root, the parts and their names. -/
theorem pathparserParse_render {s : Kernel} (hwf : s.WF) {d : Nat} (hd : d ≤ 9)
    {names : List (List UInt8)} (hne : names ≠ [])
    (hnames : ∀ name ∈ names, name ≠ [] ∧ SLASH ∉ name ∧ 0 ∉ name) {path : List UInt8}
    (hpath : path = renderPath d names ∨ path = renderPath d names ++ [SLASH])
    (hlen : path.length ≤ RASOS_PATH_MAX_LEN) (hroom : 2 * names.length + 2 ≤ freeCount s.heap) :
    Total (pathparserParse path) s fun r s' => ∃ root, s'.live r = some (pathRootK.inj root) ∧
      root.drive_number = d ∧ PathChain s' root.first names ∧
      ∀ name ∈ names, name.length < RASOS_PATH_MAX_LEN ∧ 0 ∉ name := by
  obtain ⟨hplain, htrailing⟩ := partsOf_intercalate hne fun name h => ⟨(hnames name h).1, (hnames name h).2.1⟩
  -- the path is the drive and a rest with these parts
  obtain ⟨rest, hpath', hparts, hrest⟩ : ∃ rest, path = UInt8.ofNat (48 + d) :: COLON :: SLASH :: rest ∧
      partsOf rest = names ∧ ([SLASH].intercalate names).length ≤ rest.length := by
    rcases hpath with rfl | rfl
    · exact ⟨_, rfl, hplain, Nat.le_refl _⟩
    · refine ⟨[SLASH].intercalate names ++ [SLASH], rfl, htrailing, ?_⟩
      rw [List.length_append]
      omega
  have hdigit : (UInt8.ofNat (48 + d)).toNat = 48 + d := by
    rw [UInt8.toNat_ofNat']
    omega
  have hvalid : isValidPath path = true := by
    rw [isValidPath_eq_true, hpath']
    refine ⟨hpath' ▸ hlen, ?_, rfl⟩
    rw [List.headD_cons, isDigit, Bool.and_eq_true, decide_eq_true_iff, decide_eq_true_iff,
      UInt8.le_iff_toNat_le, UInt8.le_iff_toNat_le, hdigit]
    exact ⟨Nat.le_add_right 48 d, Nat.add_le_add_left hd 48⟩
  have hdrop : path.drop 3 = rest := by rw [hpath']; rfl
  refine (pathparserParse_spec hwf path).mono ?_
  rintro r s' ⟨-, hres⟩
  rw [hdrop, hparts, if_pos ⟨hvalid, hne, by have := List.length_pos_of_ne_nil hne; omega⟩,
    List.take_of_length_le (by omega)] at hres
  obtain ⟨root, hroot, hdrive, hchain⟩ := hres
  refine ⟨root, hroot, ?_, hchain, fun name h => ⟨?_, (hnames name h).2.2⟩⟩
  · rw [hdrive, hpath', List.headD_cons, hdigit]
    omega
  · have hname := length_le_intercalate h
    rw [hpath'] at hlen
    simp only [List.length_cons] at hlen
    omega

/-- `0:/A/BC/`. -/
theorem pathparserParse_render_ABC :
    Total (pathparserParse (renderPath 0 [[0x41], [0x42, 0x43]] ++ [SLASH]))
      (oneFileKernel 600 (fun _ => 0) (fun _ _ => 0) 0) fun r s' =>
        ∃ root, s'.live r = some (pathRootK.inj root) ∧ root.drive_number = (0 : Nat) ∧
          PathChain s' root.first [[0x41], [0x42, 0x43]] ∧
          ∀ name ∈ [[0x41], [0x42, 0x43]], name.length < RASOS_PATH_MAX_LEN ∧ (0 : UInt8) ∉ name := by
  have hcount := le_freeCount (oneFileKernel 600 (fun _ => 0) (fun _ _ => 0) 0).heap 5 25600 (Nat.le_refl _)
    fun i h1 _ => oneFileKernel_free 600 _ _ h1
  exact pathparserParse_render (oneFileKernel_wf (by decide)) (by decide) (by decide) (by decide)
    (Or.inr rfl) (by decide) (le_trans (by decide) hcount)

/-- What the parser has made is the whole path, up to one slash at its end. -/
def Reproduces (s : Kernel) (root_path : UInt32) (path : List UInt8) : Prop :=
  ∃ root names, s.live root_path = some (pathRootK.inj root) ∧ PathChain s root.first names ∧
    (path = renderPath root.drive_number.toNat names ∨
      path = renderPath root.drive_number.toNat names ++ [SLASH])

/-- Fewer parts than there are do not give the path back. -/
theorem intercalate_take_ne (rest : List UInt8) (n : Nat) (hpos : 0 < n) (hn : n < (partsOf rest).length) :
    rest ≠ [SLASH].intercalate ((partsOf rest).take n) ∧
      rest ≠ [SLASH].intercalate ((partsOf rest).take n) ++ [SLASH] := by
  have hparts : [] ∉ partsOf rest := fun h => by simpa using List.mem_takeWhile_imp h
  have hsplit : (partsOf rest).take n ++ ((partsOf rest).drop n ++ (rest.splitOn SLASH).dropWhile (· ≠ []))
      = rest.splitOn SLASH := by
    rw [← List.append_assoc, List.take_append_drop]
    exact List.takeWhile_append_dropWhile
  have hback : [SLASH].intercalate (rest.splitOn SLASH) = rest := List.intercalate_splitOn SLASH
  obtain ⟨next, more, hmore⟩ : ∃ next more, (partsOf rest).drop n = next :: more := by
    refine List.exists_cons_of_ne_nil fun h => ?_
    rw [List.drop_eq_nil_iff] at h
    omega
  have hnext : 0 < next.length := by
    refine List.length_pos_of_ne_nil ?_
    rintro rfl
    exact hparts (List.mem_of_mem_drop (hmore ▸ List.mem_cons_self))
  have htake : (partsOf rest).take n ≠ [] := by
    intro h
    have hlength := congrArg List.length h
    rw [List.length_take, List.length_nil] at hlength
    omega
  rw [hmore] at hsplit
  rw [← hsplit, intercalate_append htake (by simp)] at hback
  -- behind the parts there is a slash and at least one character more
  have hbehind : 0 < ([SLASH].intercalate (next :: more ++ (rest.splitOn SLASH).dropWhile (· ≠ []))).length :=
    lt_of_lt_of_le hnext (length_le_intercalate (by simp))
  have hlength := congrArg List.length hback
  rw [List.length_append, List.length_cons] at hlength
  constructor
  · intro h
    rw [← h] at hlength
    omega
  · intro h
    have hlength' := congrArg List.length h
    rw [List.length_append, List.length_singleton] at hlength'
    omega

/-- What has been made of an accepted path: the parts there was room for. -/
theorem reproduces_iff_parts {s s' : Kernel} (hwf : s.WF) {path : List UInt8} {r : UInt32}
    (hrun : pathparserParse path s = some (r, s')) (hne : r ≠ 0) :
    partsOf (path.drop 3) ≠ [] ∧ 3 ≤ freeCount s.heap ∧ (Reproduces s' r path ↔
      (path.drop 3 = [SLASH].intercalate ((partsOf (path.drop 3)).take ((freeCount s.heap - 1) / 2)) ∨
        path.drop 3 = [SLASH].intercalate ((partsOf (path.drop 3)).take ((freeCount s.heap - 1) / 2)) ++ [SLASH])) := by
  obtain ⟨hwf', hspec⟩ := (total_of_some hrun).mp (pathparserParse_spec hwf path)
  by_cases haccepted : isValidPath path = true ∧ partsOf (path.drop 3) ≠ [] ∧ 3 ≤ freeCount s.heap
  swap
  · rw [if_neg haccepted] at hspec
    exact absurd hspec hne
  rw [if_pos haccepted] at hspec
  obtain ⟨root, hroot, hdrive, hchain⟩ := hspec
  obtain ⟨hvalid, hparts, hroom⟩ := haccepted
  obtain ⟨-, hdigit, hpath⟩ := isValidPath_eq_true.mp hvalid
  have hfirst : UInt8.ofNat (48 + root.drive_number.toNat) = path.headD 0 := by
    rw [isDigit, Bool.and_eq_true, decide_eq_true_iff, UInt8.le_iff_toNat_le] at hdigit
    have h48 : (48 : UInt8).toNat = 48 := rfl
    have hlt := (path.headD 0).toNat_lt
    rw [← UInt8.toNat_inj, UInt8.toNat_ofNat', hdrive]
    omega
  have hrender : ∀ names tail, path = renderPath root.drive_number.toNat names ++ tail ↔
      path.drop 3 = [SLASH].intercalate names ++ tail := by
    intro names tail
    rw [renderPath, hfirst]
    constructor
    · intro h
      conv_lhs => rw [h]
      rfl
    · intro h
      rw [List.cons_append, List.cons_append, List.cons_append, ← h]
      exact hpath
  have hplain := hrender ((partsOf (path.drop 3)).take ((freeCount s.heap - 1) / 2)) []
  rw [List.append_nil, List.append_nil] at hplain
  refine ⟨hparts, hroom, ?_⟩
  rw [← hplain, ← hrender _ [SLASH]]
  constructor
  · rintro ⟨root', names, hroot', hchain', h⟩
    rw [hroot] at hroot'
    obtain rfl := pathRootK.inj_injective (Option.some.inj hroot')
    rw [hchain.unique hwf' hchain']
    exact h
  · intro h
    exact ⟨root, _, hroot, hchain, h⟩

/-- **When an accepted path is reproduced**: when no component but the last is empty, and there is room for the
root, the parts and their names. -/
theorem pathparserParse_reproduces_iff {s s' : Kernel} (hwf : s.WF) {path : List UInt8} {r : UInt32}
    (hrun : pathparserParse path s = some (r, s')) (hne : r ≠ 0) :
    Reproduces s' r path ↔ [] ∉ (components path).dropLast ∧
      2 * (partsOf (path.drop 3)).length + 1 ≤ freeCount s.heap := by
  obtain ⟨hparts, hroom, hreproduces⟩ := reproduces_iff_parts hwf hrun hne
  rw [hreproduces, components]
  by_cases hall : 2 * (partsOf (path.drop 3)).length + 1 ≤ freeCount s.heap
  · rw [and_iff_left hall, List.take_of_length_le (by omega)]
    exact intercalate_partsOf_iff hparts
  · -- parts at the end are lost
    obtain ⟨h1, h2⟩ := intercalate_take_ne (path.drop 3) ((freeCount s.heap - 1) / 2)
      (by omega) (by omega)
    exact iff_of_false (fun h => h.elim h1 h2) fun h => hall h.2

/-- `0:/A/B`. -/
theorem pathparserParse_reproduces_AB :
    ∃ r s', pathparserParse [0x30, COLON, SLASH, 0x41, SLASH, 0x42]
        (oneFileKernel 600 (fun _ => 0) (fun _ _ => 0) 0) = some (r, s') ∧
      Reproduces s' r [0x30, COLON, SLASH, 0x41, SLASH, 0x42] := by
  obtain ⟨r, s', hrun, hne⟩ : Total (pathparserParse [0x30, COLON, SLASH, 0x41, SLASH, 0x42])
      (oneFileKernel 600 (fun _ => 0) (fun _ _ => 0) 0) fun r _ => r ≠ 0 := by decide +kernel
  have hcount := le_freeCount (oneFileKernel 600 (fun _ => 0) (fun _ _ => 0) 0).heap 5 25600 (Nat.le_refl _)
    fun i h1 _ => oneFileKernel_free 600 _ _ h1
  exact ⟨r, s', hrun, (pathparserParse_reproduces_iff (oneFileKernel_wf (by decide)) hrun hne).mpr
    ⟨by decide, le_trans (by decide) hcount⟩⟩

/-- `0:/A//B` is accepted, and its only part is `A`. -/
theorem pathparserParse_drops :
    Total (pathparserParse [0x30, COLON, SLASH, 0x41, SLASH, SLASH, 0x42])
      (oneFileKernel 600 (fun _ => 0) (fun _ _ => 0) 0) fun r s' => r ≠ 0 ∧
        Total (load pathRootK r >>= fun root => load pathPartK root.first >>= fun part =>
          load pathNameK part.part >>= fun name => Pure.pure (name, part.next)) s'
          (fun parts _ => parts = ([0x41], 0)) ∧
        ¬ Reproduces s' r [0x30, COLON, SLASH, 0x41, SLASH, SLASH, 0x42] := by
  obtain ⟨r, s', hrun, hne, hparts⟩ : Total (pathparserParse [0x30, COLON, SLASH, 0x41, SLASH, SLASH, 0x42])
      (oneFileKernel 600 (fun _ => 0) (fun _ _ => 0) 0) fun r s' => r ≠ 0 ∧
        Total (load pathRootK r >>= fun root => load pathPartK root.first >>= fun part =>
          load pathNameK part.part >>= fun name => Pure.pure (name, part.next)) s'
          (fun parts _ => parts = ([0x41], 0)) := by decide +kernel
  refine ⟨r, s', hrun, hne, hparts, ?_⟩
  obtain ⟨-, hroom, hreproduces⟩ := reproduces_iff_parts (oneFileKernel_wf (by decide)) hrun hne
  have hone : (partsOf ([0x30, COLON, SLASH, 0x41, SLASH, SLASH, 0x42].drop 3)).length = 1 := by decide
  rw [hreproduces, List.take_of_length_le (by omega)]
  decide

end RasOS
