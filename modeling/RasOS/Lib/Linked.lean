import Mathlib.Tactic

set_option autoImplicit false

/-! # Doubly linked lists

`node p` is what is stored at `p`: the next and the previous pointer, or nothing. `Linked` says that
a list of pointers is linked both ways. The rules are for the two ends of the argument about an
operation: what a node of a linked list holds, and that a list grown at its end is linked again. -/

namespace Machine

variable {Ptr : Type} {node node' : Ptr → Option (Ptr × Ptr)} {null : Ptr}

/-- The nodes `l` are linked in this order, with `p` before the first and `null` after the last. -/
def Linked (node : Ptr → Option (Ptr × Ptr)) (null : Ptr) : Ptr → List Ptr → Prop
  | _, [] => True
  | p, t :: l => node t = some (l.headD null, p) ∧ Linked node null t l

theorem Linked.congr {p : Ptr} {l : List Ptr} (h : Linked node null p l)
    (hagree : ∀ t ∈ l, node' t = node t) : Linked node' null p l := by
  induction l generalizing p with
  | nil => trivial
  | cons t l ih =>
      obtain ⟨hnode, hrest⟩ := h
      refine ⟨?_, ih hrest fun u hu => hagree u (List.mem_cons_of_mem _ hu)⟩
      rw [hagree t List.mem_cons_self, hnode]

/-- What a node holds. -/
theorem Linked.node_eq {p t : Ptr} {pre post : List Ptr} (h : Linked node null p (pre ++ t :: post)) :
    node t = some (post.headD null, pre.getLastD p) := by
  induction pre generalizing p with
  | nil => exact h.1
  | cons u pre ih =>
      have hrest := ih h.2
      rw [hrest]
      cases pre with
      | nil => rfl
      | cons v pre => rfl

/-- **Growing at the end.** The last node gets a successor, the others stay as they are. -/
theorem Linked.append {p last t : Ptr} {l : List Ptr} (h : Linked node null p (l ++ [last]))
    (hagree : ∀ u ∈ l, node' u = node u)
    (hlast : ∀ q, node last = some (null, q) → node' last = some (t, q))
    (hnew : node' t = some (null, last)) : Linked node' null p (l ++ [last] ++ [t]) := by
  induction l generalizing p with
  | nil => exact ⟨hlast p h.1, hnew, trivial⟩
  | cons u l ih =>
      obtain ⟨hnode, hrest⟩ := h
      refine ⟨?_, ih hrest fun v hv => hagree v (List.mem_cons_of_mem _ hv)⟩
      rw [hagree u List.mem_cons_self, hnode]
      cases l with
      | nil => rfl
      | cons v l => rfl

end Machine
