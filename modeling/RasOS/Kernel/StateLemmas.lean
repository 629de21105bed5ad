import RasOS.Kernel.State

set_option autoImplicit false

/-! # Rules for the primitives of the state

Each primitive has a rule that says when it returns and what it leaves; programs are run with
these rules and `bind_of_some`. -/

namespace RasOS

open Machine

variable {α : Type}

theorem load_eq_some {k : Kind Obj α} {ptr : UInt32} {s s' : Kernel} {a : α} :
    load k ptr s = some (a, s') ↔ s.live ptr = some (k.inj a) ∧ s' = s := by
  rw [load, Option.map_eq_some_iff]
  constructor
  · rintro ⟨b, hb, heq⟩
    obtain ⟨rfl, rfl⟩ := Prod.mk.inj heq
    exact ⟨Kind.read_eq_some.mp hb, rfl⟩
  · rintro ⟨h, rfl⟩
    exact ⟨a, Kind.read_eq_some.mpr h, rfl⟩

theorem load_of_live {k : Kind Obj α} {ptr : UInt32} {s : Kernel} {a : α}
    (h : s.live ptr = some (k.inj a)) : load k ptr s = some (a, s) :=
  load_eq_some.mpr ⟨h, rfl⟩

theorem store_of_live {k : Kind Obj α} {ptr : UInt32} {s : Kernel} {a : α}
    (h : s.live ptr = some (k.inj a)) (b : α) :
    store k ptr b s = some ((), { s with live := k.write s.live ptr b }) := by
  rw [store, Kind.read_eq_some.mpr h]
  rfl

theorem store_eq_some {k : Kind Obj α} {ptr : UInt32} {s s' : Kernel} {b : α} {u : Unit} :
    store k ptr b s = some (u, s') ↔
      (∃ a, s.live ptr = some (k.inj a)) ∧ s' = { s with live := k.write s.live ptr b } := by
  rw [store, Option.map_eq_some_iff]
  constructor
  · rintro ⟨a, ha, heq⟩
    exact ⟨⟨a, Kind.read_eq_some.mp ha⟩, (Prod.mk.inj heq).2.symm⟩
  · rintro ⟨⟨a, ha⟩, rfl⟩
    exact ⟨a, Kind.read_eq_some.mpr ha, rfl⟩

theorem storeUnchecked_of_ne {k : Kind Obj α} {ptr : UInt32} (hne : ptr ≠ 0) (a : α) :
    storeUnchecked k ptr a = store k ptr a := if_neg hne

theorem storeUnchecked_null (k : Kind Obj α) (a : α) : storeUnchecked k 0 a = pure () := if_pos rfl

theorem kfreeUnchecked_of_ne {k : Kind Obj α} {ptr : UInt32} (hne : ptr ≠ 0) :
    kfreeUnchecked k ptr = kfree k ptr := if_neg hne

theorem fetch_apply (f : Kernel → α) (s : Kernel) : fetch f s = some (f s, s) := rfl

theorem assign_apply (f : Kernel → Kernel) (s : Kernel) : assign f s = some ((), f s) := rfl

/-! ## Steps of a sequence -/

section Sequence

variable {β : Type} {s : Kernel} {Q : β → Kernel → Prop}

theorem ensures_load {k : Kind Obj α} {ptr : UInt32} {f : α → KernelM β}
    (hf : ∀ a, s.live ptr = some (k.inj a) → Ensures (f a) s Q) :
    Ensures (load k ptr >>= f) s Q := by
  refine Ensures.bind (Q := fun a s' => s.live ptr = some (k.inj a) ∧ s' = s)
    (fun _ _ h => load_eq_some.mp h) ?_
  rintro a s' ⟨ha, rfl⟩
  exact hf a ha

theorem ensures_store {k : Kind Obj α} {ptr : UInt32} {b : α} {f : Unit → KernelM β}
    (hf : ∀ a, s.live ptr = some (k.inj a) →
      Ensures (f ()) { s with live := k.write s.live ptr b } Q) :
    Ensures (store k ptr b >>= f) s Q := by
  refine Ensures.bind (Q := fun _ s' => (∃ a, s.live ptr = some (k.inj a)) ∧
    s' = { s with live := k.write s.live ptr b }) (fun _ _ h => store_eq_some.mp h) ?_
  rintro _ s' ⟨⟨a, ha⟩, rfl⟩
  exact hf a ha

theorem ensures_fetch {g : Kernel → α} {f : α → KernelM β} (hf : Ensures (f (g s)) s Q) :
    Ensures (fetch g >>= f) s Q := by
  intro b s' h
  rw [bind_of_some (fetch_apply _ _)] at h
  exact hf b s' h

theorem ensures_assign {g : Kernel → Kernel} {f : Unit → KernelM β} (hf : Ensures (f ()) (g s) Q) :
    Ensures (assign g >>= f) s Q := by
  intro b s' h
  rw [bind_of_some (assign_apply _ _)] at h
  exact hf b s' h

theorem total_load {k : Kind Obj α} {ptr : UInt32} {a : α} {f : α → KernelM β}
    (ha : s.live ptr = some (k.inj a)) : Total (load k ptr >>= f) s Q ↔ Total (f a) s Q :=
  total_bind_of_some (load_of_live ha)

/-- What a load of an object delivers. -/
theorem total_load_iff {k : Kind Obj α} {ptr : UInt32} {f : α → KernelM β} :
    Total (load k ptr >>= f) s Q ↔ ∃ a, s.live ptr = some (k.inj a) ∧ Total (f a) s Q := by
  rw [total_bind]
  constructor
  · rintro ⟨a, s', hload, hQ⟩
    obtain ⟨ha, rfl⟩ := load_eq_some.mp hload
    exact ⟨a, ha, hQ⟩
  · rintro ⟨a, ha, hQ⟩
    exact ⟨a, s, load_of_live ha, hQ⟩

theorem total_store {k : Kind Obj α} {ptr : UInt32} {a b : α} {f : Unit → KernelM β}
    (ha : s.live ptr = some (k.inj a)) : Total (store k ptr b >>= f) s Q ↔
      Total (f ()) { s with live := k.write s.live ptr b } Q :=
  total_bind_of_some (store_of_live ha b)

theorem total_fetch {g : Kernel → α} {f : α → KernelM β} :
    Total (fetch g >>= f) s Q ↔ Total (f (g s)) s Q :=
  total_bind_of_some (fetch_apply _ _)

theorem total_assign {g : Kernel → Kernel} {f : Unit → KernelM β} :
    Total (assign g >>= f) s Q ↔ Total (f ()) (g s) Q :=
  total_bind_of_some (assign_apply _ _)

end Sequence

/-- There is one file system. -/
theorem filesystem_of_ne_none {filesystem : Option FileSystem} (h : filesystem ≠ none) :
    filesystem = some .fat16 := by
  cases filesystem with
  | none => exact absurd rfl h
  | some filesystem =>
      cases filesystem
      rfl

end RasOS
