import RasOS.Lib.Prog

set_option autoImplicit false

/-! # Programs that report events

A `Traced` program is a program that also reports what it does on the way. The events that it has
reported before it stops are kept. `erase` forgets the events again, so a traced copy of a program
is shown to be the program.

Two readings of the events are compared: `P` says that what an event reports is right, `M` that the
branch it stands in is not one that goes wrong. `Exact P M x s Q`: in the run of `x` from `s` all
events are right exactly when all branches are, and then `Q` holds when it returns. -/

namespace Machine

/-- A program over the state `σ` returning `α` that reports events `ε`. -/
def Traced (ε σ α : Type) := σ → List ε × Option (α × σ)

namespace Traced

variable {ε σ α β : Type}

instance : Monad (Traced ε σ) where
  pure a := fun s => ([], some (a, s))
  bind x f := fun s =>
    match x s with
    | (es, none) => (es, none)
    | (es, some (a, s')) =>
        match f a s' with
        | (es', r) => (es ++ es', r)

/-- A program that reports nothing. -/
def lift (x : Prog σ α) : Traced ε σ α := fun s => ([], x s)

instance : MonadLift (Prog σ) (Traced ε σ) := ⟨lift⟩

/-- Report an event about the state. -/
def emit (e : σ → ε) : Traced ε σ Unit := fun s => ([e s], some ((), s))

/-- Return what has been reported, too. -/
def listen (x : Traced ε σ α) : Traced ε σ (α × List ε) := fun s =>
  ((x s).1, (x s).2.map fun r => ((r.1, (x s).1), r.2))

/-- The events of the run from `s`. -/
def events (x : Traced ε σ α) (s : σ) : List ε := (x s).1

/-- The program without its events. -/
def erase (x : Traced ε σ α) : Prog σ α := fun s => (x s).2

theorem bind_bind {γ : Type} (x : Traced ε σ α) (f : α → Traced ε σ β) (g : β → Traced ε σ γ) :
    (x >>= f) >>= g = x >>= fun a => f a >>= g := by
  funext s
  simp only [Bind.bind]
  rcases x s with ⟨es, _ | ⟨a, s'⟩⟩
  · rfl
  dsimp only
  rcases f a s' with ⟨es', _ | ⟨b, s''⟩⟩
  · rfl
  · exact Prod.ext (List.append_assoc es es' _) rfl

theorem events_bind (x : Traced ε σ α) (f : α → Traced ε σ β) (s : σ) :
    (x >>= f).events s = x.events s ++ ((x.erase s).map fun r => (f r.1).events r.2).getD [] := by
  show (match x s with
    | (es, none) => (es, none)
    | (es, some (a, s')) =>
        match f a s' with
        | (es', r) => (es ++ es', r) : List ε × Option (β × σ)).1 = _
  unfold events erase
  generalize x s = r
  rcases r with ⟨es, _ | ⟨a, s'⟩⟩
  · simp
  · simp

theorem events_bind_of_some {x : Traced ε σ α} {f : α → Traced ε σ β} {s s' : σ} {a : α}
    (h : x.erase s = some (a, s')) : (x >>= f).events s = x.events s ++ (f a).events s' := by
  rw [events_bind, h]
  rfl

theorem events_bind_of_none {x : Traced ε σ α} {f : α → Traced ε σ β} {s : σ}
    (h : x.erase s = none) : (x >>= f).events s = x.events s := by
  rw [events_bind, h]
  exact List.append_nil _

/-- An event of the first part of a sequence is one of the sequence. -/
theorem mem_events_bind {x : Traced ε σ α} {f : α → Traced ε σ β} {s : σ} {e : ε} (h : e ∈ x.events s) :
    e ∈ (x >>= f).events s := by
  rw [events_bind]
  exact List.mem_append_left _ h

/-- And so is one of the second part, when the first part returns. -/
theorem mem_events_of_some {x : Traced ε σ α} {f : α → Traced ε σ β} {s s' : σ} {a : α} {e : ε}
    (hx : x.erase s = some (a, s')) (h : e ∈ (f a).events s') : e ∈ (x >>= f).events s := by
  rw [events_bind, hx]
  exact List.mem_append_right _ h

/-- What is reported first. -/
theorem mem_events_emit {e : σ → ε} {f : Unit → Traced ε σ β} {s : σ} : e s ∈ (emit e >>= f).events s :=
  mem_events_bind (List.mem_singleton_self _)

/-- What is reported behind it. -/
theorem mem_events_behind {e : σ → ε} {f : Unit → Traced ε σ β} {s : σ} {e' : ε} (h : e' ∈ (f ()).events s) :
    e' ∈ (emit e >>= f).events s :=
  mem_events_of_some rfl h

theorem exists_event_bind {x : Traced ε σ α} {f : α → Traced ε σ β} {s : σ} {P : ε → Prop}
    (h : ∃ e ∈ x.events s, P e) : ∃ e ∈ (x >>= f).events s, P e := by
  obtain ⟨e, he, hP⟩ := h
  exact ⟨e, mem_events_bind he, hP⟩

theorem exists_event_of_some {x : Traced ε σ α} {f : α → Traced ε σ β} {s s' : σ} {a : α}
    {P : ε → Prop} (hx : x.erase s = some (a, s')) (h : ∃ e ∈ (f a).events s', P e) :
    ∃ e ∈ (x >>= f).events s, P e := by
  obtain ⟨e, he, hP⟩ := h
  exact ⟨e, mem_events_of_some hx he, hP⟩

/-! ## Forgetting the events -/

theorem erase_pure (a : α) : erase (pure a : Traced ε σ α) = pure a := rfl

theorem erase_lift (x : Prog σ α) : erase (liftM x : Traced ε σ α) = x := rfl

theorem erase_emit (e : σ → ε) : erase (emit e) = pure () := rfl

theorem erase_bind {x : Traced ε σ α} {y : Prog σ α} {f : α → Traced ε σ β} {g : α → Prog σ β}
    (hx : x.erase = y) (hf : ∀ a, (f a).erase = g a) : (x >>= f).erase = y >>= g := by
  subst hx
  funext s
  have hg : g = fun a => (f a).erase := funext fun a => (hf a).symm
  rw [bind_apply, hg]
  show (match x s with
    | (es, none) => (es, none)
    | (es, some (a, s')) =>
        match f a s' with
        | (es', r) => (es ++ es', r) : List ε × Option (β × σ)).2 = _
  unfold erase
  generalize x s = r
  rcases r with ⟨es, _ | ⟨a, s'⟩⟩
  · rfl
  · rfl

/-- An event in front of a program. -/
theorem erase_emit_bind (e : σ → ε) {f : Unit → Traced ε σ β} {y : Prog σ β}
    (hf : (f ()).erase = y) : (emit e >>= f).erase = y :=
  erase_bind (erase_emit e) fun _ => hf

/-- What has been reported does not change what the program does. -/
theorem erase_listen_bind {x : Traced ε σ α} {y : Prog σ α} {f : α × List ε → Traced ε σ β}
    {g : α → Prog σ β} (hx : x.erase = y) (hf : ∀ r, (f r).erase = g r.1) :
    (listen x >>= f).erase = y >>= g := by
  rw [erase_bind (g := fun r => g r.1) rfl hf, ← hx]
  funext s
  rw [bind_apply, bind_apply]
  show ((x s).2.map _).bind _ = (x s).2.bind _
  cases (x s).2 with
  | none => rfl
  | some r => rfl

theorem erase_ite {c : Prop} [Decidable c] {x y : Traced ε σ α} {x' y' : Prog σ α}
    (hx : x.erase = x') (hy : y.erase = y') : (if c then x else y).erase = if c then x' else y' := by
  split
  · exact hx
  · exact hy

/-! A traced program that computes more than the program goes on with `g` to what that returns. -/

theorem erase_bind_bind {γ : Type} {x : Traced ε σ α} {y : Prog σ α} {f : α → Traced ε σ β}
    {g : β → Prog σ γ} {z : α → Prog σ γ} (hx : x.erase = y) (hf : ∀ a, (f a).erase >>= g = z a) :
    (x >>= f).erase >>= g = y >>= z := by
  rw [erase_bind hx fun _ => rfl, bind_assoc]
  exact congrArg (y >>= ·) (funext hf)

theorem erase_ite_bind {c : Prop} [Decidable c] {x y : Traced ε σ α} {g : α → Prog σ β}
    {x' y' : Prog σ β} (hx : x.erase >>= g = x') (hy : y.erase >>= g = y') :
    (if c then x else y).erase >>= g = if c then x' else y' := by
  split
  · exact hx
  · exact hy

/-! ## Events that are right -/

/-- All events of the run are right exactly when all branches are, and then the program ensures
`Q`. -/
def Exact (P M : ε → Prop) (x : Traced ε σ α) (s : σ) (Q : α → σ → Prop) : Prop :=
  ((∀ e ∈ x.events s, P e) ↔ ∀ e ∈ x.events s, M e) ∧
    ((∀ e ∈ x.events s, M e) → Ensures x.erase s Q)

namespace Exact

variable {P M : ε → Prop} {x : Traced ε σ α} {s : σ} {Q Q' : α → σ → Prop}

theorem pure {a : α} (h : Q a s) : Exact P M (Pure.pure a) s Q := by
  refine ⟨iff_of_true ?_ ?_, fun _ => Ensures.pure h⟩
  · exact fun e he => by cases he
  · exact fun e he => by cases he

theorem lift {x : Prog σ α} (h : Ensures x s Q) : Exact P M (liftM x : Traced ε σ α) s Q := by
  refine ⟨iff_of_true ?_ ?_, fun _ => h⟩
  · exact fun e he => by cases he
  · exact fun e he => by cases he

/-- An event may be used behind it, in both readings. -/
theorem emit {e : σ → ε} {Q : Unit → σ → Prop} (h : P (e s) ↔ M (e s)) (hQ : P (e s) → Q () s) :
    Exact P M (emit e) s Q := by
  have hall : ∀ R : ε → Prop, (∀ e' ∈ (Traced.emit e).events s, R e') ↔ R (e s) := fun R =>
    List.forall_mem_singleton
  refine ⟨(hall P).trans (h.trans (hall M).symm), fun hM => ?_⟩
  exact Ensures.pure (hQ (h.mpr ((hall M).mp hM)))

theorem bind {f : α → Traced ε σ β} {Q' : β → σ → Prop} (hx : Exact P M x s Q)
    (hf : ∀ a s', Q a s' → Exact P M (f a) s' Q') : Exact P M (x >>= f) s Q' := by
  have herase : (x >>= f).erase = x.erase >>= fun a => (f a).erase := erase_bind rfl fun _ => rfl
  unfold Exact
  rw [events_bind, herase]
  simp only [List.mem_append, or_imp, forall_and]
  by_cases hM : ∀ e ∈ x.events s, M e
  · have hP := hx.1.mpr hM
    have hQ := hx.2 hM
    refine ⟨and_congr (iff_of_true hP hM) ?_, fun h => ?_⟩
    · cases hrun : x.erase s with
      | none => simp
      | some r =>
          have hrest := (hf r.1 r.2 (hQ _ _ hrun)).1
          simpa using hrest
    · intro b s'' hb
      obtain ⟨a, s', ha, hb⟩ := bind_eq_some.mp hb
      refine (hf a s' (hQ a s' ha)).2 (fun e he => h.2 e ?_) b s'' hb
      simp [ha, he]
  · refine ⟨iff_of_false (fun h => hM (hx.1.mp h.1)) fun h => hM h.1, fun h => absurd h.1 hM⟩

theorem mono (h : Exact P M x s Q) (hQ : ∀ a s', Q a s' → Q' a s') : Exact P M x s Q' :=
  ⟨h.1, fun hM => (h.2 hM).mono hQ⟩

theorem ite {c : Prop} [Decidable c] {y : Traced ε σ α} (hx : c → Exact P M x s Q)
    (hy : ¬ c → Exact P M y s Q) : Exact P M (if c then x else y) s Q := by
  split
  · exact hx ‹c›
  · exact hy ‹¬ c›

/-- What the program ensures anyway. -/
theorem and_ensures (h : Exact P M x s Q) (h' : Ensures x.erase s Q') :
    Exact P M x s fun a s' => Q a s' ∧ Q' a s' :=
  ⟨h.1, fun hM a s' hrun => ⟨h.2 hM a s' hrun, h' a s' hrun⟩⟩

/-- A silent first part. -/
theorem bind_lift {x : Prog σ α} {f : α → Traced ε σ β} {Q' : β → σ → Prop} (h : Ensures x s Q)
    (hf : ∀ a s', Q a s' → Exact P M (f a) s' Q') : Exact P M (liftM x >>= f) s Q' :=
  (lift h).bind hf

/-- A silent first part of which nothing is asked. -/
theorem bind_skip {x : Prog σ α} {f : α → Traced ε σ β} {Q' : β → σ → Prop}
    (hf : ∀ a s', Exact P M (f a) s' Q') : Exact P M (liftM x >>= f) s Q' :=
  bind_lift (Q := fun _ _ => True) (fun _ _ _ => trivial) fun a s' _ => hf a s'

/-- A silent first part whose run is known. -/
theorem bind_of_some {x : Prog σ α} {f : α → Traced ε σ β} {a : α} {s' : σ} {Q' : β → σ → Prop}
    (h : x s = some (a, s')) (hf : Exact P M (f a) s' Q') : Exact P M (liftM x >>= f) s Q' := by
  refine bind_lift (Q := fun b t => a = b ∧ s' = t) ((ensures_of_some h).mpr ⟨rfl, rfl⟩) ?_
  rintro _ _ ⟨rfl, rfl⟩
  exact hf

/-- Some event is wrong and some branch is. -/
theorem of_wrong (hP : ∃ e ∈ x.events s, ¬ P e) (hM : ∃ e ∈ x.events s, ¬ M e) : Exact P M x s Q := by
  obtain ⟨e, he, hPe⟩ := hP
  obtain ⟨e', he', hMe⟩ := hM
  exact ⟨iff_of_false (fun h => hPe (h e he)) fun h => hMe (h e' he'), fun h => absurd (h e' he') hMe⟩

end Exact

/-! ## Runs in which no branch goes wrong -/

/-- The program returns and ensures `Q`, and no branch on the way goes wrong. -/
def Sound (M : ε → Prop) (x : Traced ε σ α) (s : σ) (Q : α → σ → Prop) : Prop :=
  Total x.erase s Q ∧ ∀ e ∈ x.events s, M e

namespace Sound

variable {M : ε → Prop} {x : Traced ε σ α} {s : σ} {Q Q' : α → σ → Prop}

theorem lift {x : Prog σ α} (h : Total x s Q) : Sound M (liftM x : Traced ε σ α) s Q :=
  ⟨h, fun _ he => by cases he⟩

theorem pure {a : α} (h : Q a s) : Sound M (Pure.pure a) s Q := lift (total_pure.mpr h)

theorem emit {e : σ → ε} {Q : Unit → σ → Prop} (h : M (e s)) (hQ : Q () s) :
    Sound M (emit e) s Q :=
  ⟨total_pure.mpr hQ, List.forall_mem_singleton.mpr h⟩

theorem bind {f : α → Traced ε σ β} {Q' : β → σ → Prop} (hx : Sound M x s Q)
    (hf : ∀ a s', Q a s' → Sound M (f a) s' Q') : Sound M (x >>= f) s Q' := by
  obtain ⟨⟨a, s', hrun, hQ⟩, hevents⟩ := hx
  obtain ⟨htotal, hevents'⟩ := hf a s' hQ
  have herase : (x >>= f).erase = x.erase >>= fun a => (f a).erase := erase_bind rfl fun _ => rfl
  refine ⟨?_, ?_⟩
  · rw [herase]
    exact (total_bind_of_some hrun).mpr htotal
  · rw [events_bind_of_some hrun]
    exact List.forall_mem_append.mpr ⟨hevents, hevents'⟩

/-- A silent first part. -/
theorem bind_lift {x : Prog σ α} {f : α → Traced ε σ β} {Q' : β → σ → Prop} (h : Total x s Q)
    (hf : ∀ a s', Q a s' → Sound M (f a) s' Q') : Sound M (liftM x >>= f) s Q' :=
  (lift h).bind hf

/-- A silent first part whose run is known. -/
theorem bind_of_some {x : Prog σ α} {f : α → Traced ε σ β} {a : α} {s' : σ} {Q' : β → σ → Prop}
    (h : x s = some (a, s')) (hf : Sound M (f a) s' Q') : Sound M (liftM x >>= f) s Q' := by
  refine bind_lift (Q := fun b t => a = b ∧ s' = t) ((total_of_some h).mpr ⟨rfl, rfl⟩) ?_
  rintro _ _ ⟨rfl, rfl⟩
  exact hf

/-- A first part whose run is known, with its events. -/
theorem bind_of_run {f : α → Traced ε σ β} {a : α} {s' : σ} {Q' : β → σ → Prop}
    (h : x.erase s = some (a, s')) (hevents : ∀ e ∈ x.events s, M e) (hf : Sound M (f a) s' Q') :
    Sound M (x >>= f) s Q' := by
  refine bind (Q := fun b t => a = b ∧ s' = t) ⟨(total_of_some h).mpr ⟨rfl, rfl⟩, hevents⟩ ?_
  rintro _ _ ⟨rfl, rfl⟩
  exact hf

theorem mono (h : Sound M x s Q) (hQ : ∀ a s', Q a s' → Q' a s') : Sound M x s Q' :=
  ⟨h.1.mono hQ, h.2⟩

/-- What the program ensures anyway. -/
theorem and_ensures (h : Sound M x s Q) (h' : Ensures x.erase s Q') :
    Sound M x s fun a s' => Q a s' ∧ Q' a s' := by
  obtain ⟨a, s', hrun, hQ⟩ := h.1
  exact ⟨⟨a, s', hrun, hQ, h' a s' hrun⟩, h.2⟩

end Sound

/-- A program whose events are fine in every run. -/
def Always (M : ε → Prop) (x : Traced ε σ α) : Prop := ∀ s, ∀ e ∈ x.events s, M e

namespace Always

variable {M : ε → Prop} {x : Traced ε σ α}

theorem lift (x : Prog σ α) : Always M (liftM x : Traced ε σ α) := fun _ _ he => by cases he

theorem pure (a : α) : Always M (Pure.pure a : Traced ε σ α) := fun _ _ he => by cases he

theorem emit {e : σ → ε} (h : ∀ s, M (e s)) : Always M (emit e) := fun s =>
  List.forall_mem_singleton.mpr (h s)

theorem bind {f : α → Traced ε σ β} (hx : Always M x) (hf : ∀ a, Always M (f a)) :
    Always M (x >>= f) := by
  intro s
  rw [events_bind]
  refine List.forall_mem_append.mpr ⟨hx s, ?_⟩
  cases hrun : x.erase s with
  | none => exact fun _ he => by cases he
  | some r => exact hf r.1 r.2

theorem ite {c : Prop} [Decidable c] {y : Traced ε σ α} (hx : Always M x) (hy : Always M y) :
    Always M (if c then x else y) := by
  split
  · exact hx
  · exact hy

theorem sound (h : Always M x) {s : σ} {Q : α → σ → Prop} (htotal : Total x.erase s Q) : Sound M x s Q :=
  ⟨htotal, h s⟩

end Always

/-! ## Errors that are passed on

Some events report a failure (`F`). A program passes failures on when it ends with an error (`E`) in
every run with a failure; the failures that it does not pass on are those where a branch goes wrong. -/

/-- All events are right, and no branch goes wrong. -/
def Clean (P M : ε → Prop) (es : List ε) : Prop := ∀ e ∈ es, P e ∧ M e

/-- Some event is wrong and some branch is. -/
def Tainted (P M : ε → Prop) (es : List ε) : Prop := (∃ e ∈ es, ¬ P e) ∧ ∃ e ∈ es, ¬ M e

theorem Clean.append {P M : ε → Prop} {es es' : List ε} (h : Clean P M es) (h' : Clean P M es') :
    Clean P M (es ++ es') := List.forall_mem_append.mpr ⟨h, h'⟩

theorem Tainted.append_left {P M : ε → Prop} {es es' : List ε} (h : Tainted P M es) :
    Tainted P M (es ++ es') := by
  obtain ⟨⟨e, he, hP⟩, e', he', hM⟩ := h
  exact ⟨⟨e, List.mem_append_left _ he, hP⟩, e', List.mem_append_left _ he', hM⟩

theorem Tainted.append_right {P M : ε → Prop} {es es' : List ε} (h : Tainted P M es') :
    Tainted P M (es ++ es') := by
  obtain ⟨⟨e, he, hP⟩, e', he', hM⟩ := h
  exact ⟨⟨e, List.mem_append_right _ he, hP⟩, e', List.mem_append_right _ he', hM⟩

/-- What is done after a failure: the run ends with an error, which it returns under the condition
`g`. -/
inductive AfterError (P M : ε → Prop) (g : Prop) (x : Traced ε σ α) (s : σ) (E : α → σ → Prop) : Prop
  | passed (clean : Clean P M (x.events s)) (error : Guarded g x.erase s E)
  | tainted (wrong : Tainted P M (x.events s))

/-- The run ensures `Q` when nothing fails, and ends with an error after a failure. -/
inductive Relays (P M F : ε → Prop) (g : Prop) (x : Traced ε σ α) (s : σ) (Q E : α → σ → Prop) : Prop
  | fine (clean : Clean P M (x.events s)) (answered : ∀ e ∈ x.events s, ¬ F e)
      (done : Ensures x.erase s Q)
  | failed (clean : Clean P M (x.events s)) (failure : ∃ e ∈ x.events s, F e)
      (error : Guarded g x.erase s E)
  | tainted (wrong : Tainted P M (x.events s))

section Errors

variable {P M F : ε → Prop} {g : Prop} {x : Traced ε σ α} {s : σ} {Q E : α → σ → Prop}

namespace AfterError

theorem lift {x : Prog σ α} (h : Guarded g x s E) : AfterError P M g (liftM x : Traced ε σ α) s E :=
  passed (fun _ he => by cases he) h

theorem pure {a : α} (h : E a s) : AfterError P M g (Pure.pure a) s E :=
  passed (fun _ he => by cases he) (Guarded.pure h)

theorem bind {f : α → Traced ε σ β} {E' : β → σ → Prop} (hx : AfterError P M g x s E)
    (hf : ∀ a s', E a s' → AfterError P M g (f a) s' E') : AfterError P M g (x >>= f) s E' := by
  have herase : (x >>= f).erase = x.erase >>= fun a => (f a).erase := erase_bind rfl fun _ => rfl
  cases hx with
  | passed hclean herror =>
      cases hrun : x.erase s with
      | none =>
          have hg : ¬ g := fun hg => by
            obtain ⟨a, s', h, -⟩ := herror.total hg
            rw [hrun] at h
            cases h
          refine passed ?_ ?_
          · rw [events_bind_of_none hrun]
            exact hclean
          · rw [herase]
            exact Guarded.bind_of_none hrun hg
      | some r =>
          cases hf r.1 r.2 (herror.1 _ _ hrun) with
          | passed hclean' herror' =>
              refine passed ?_ ?_
              · rw [events_bind_of_some hrun]
                exact hclean.append hclean'
              · rw [herase]
                exact Guarded.bind_of_some hrun herror'
          | tainted hwrong =>
              refine tainted ?_
              rw [events_bind_of_some hrun]
              exact hwrong.append_right
  | tainted hwrong =>
      refine tainted ?_
      rw [events_bind]
      exact hwrong.append_left

theorem ite {c : Prop} [Decidable c] {y : Traced ε σ α} (hx : c → AfterError P M g x s E)
    (hy : ¬ c → AfterError P M g y s E) : AfterError P M g (if c then x else y) s E := by
  split
  · exact hx ‹c›
  · exact hy ‹¬ c›

/-- An event where the branch goes wrong. -/
theorem of_emit {e : σ → ε} {f : Unit → Traced ε σ α} (hP : ¬ P (e s)) (hM : ¬ M (e s)) :
    AfterError P M g (emit e >>= f) s E := by
  refine tainted ?_
  rw [events_bind]
  have hwrong : Tainted P M ((emit e).events s) :=
    ⟨⟨_, List.mem_singleton_self _, hP⟩, _, List.mem_singleton_self _, hM⟩
  exact hwrong.append_left

/-- What is done may fail, too, if it returns in any case. -/
theorem of_relays (h : Relays P M F g x s Q E) (hreturns : ∃ a s', x.erase s = some (a, s')) :
    AfterError P M g x s fun a s' => Q a s' ∨ E a s' := by
  cases h with
  | fine hclean _ hdone => exact passed hclean ⟨hdone.mono fun _ _ => Or.inl, fun _ => hreturns⟩
  | failed hclean _ herror => exact passed hclean (herror.mono fun _ _ => Or.inr)
  | tainted hwrong => exact tainted hwrong

end AfterError

namespace Relays

theorem lift {x : Prog σ α} (h : Ensures x s Q) : Relays P M F g (liftM x : Traced ε σ α) s Q E :=
  fine (fun _ he => by cases he) (fun _ he => by cases he) h

theorem pure {a : α} (h : Q a s) : Relays P M F g (Pure.pure a) s Q E := lift (Ensures.pure h)

theorem bind {f : α → Traced ε σ β} {Q' E' : β → σ → Prop} (hx : Relays P M F g x s Q E)
    (hf : ∀ a s', Q a s' → Relays P M F g (f a) s' Q' E')
    (he : ∀ a s', E a s' → AfterError P M g (f a) s' E') : Relays P M F g (x >>= f) s Q' E' := by
  have herase : (x >>= f).erase = x.erase >>= fun a => (f a).erase := erase_bind rfl fun _ => rfl
  cases hx with
  | fine hclean hanswered hdone =>
      cases hrun : x.erase s with
      | none =>
          refine fine ?_ ?_ ?_
          · rw [events_bind_of_none hrun]
            exact hclean
          · rw [events_bind_of_none hrun]
            exact hanswered
          · intro b s'' hb
            rw [herase, bind_of_none hrun] at hb
            cases hb
      | some r =>
          cases hf r.1 r.2 (hdone _ _ hrun) with
          | fine hclean' hanswered' hdone' =>
              refine fine ?_ ?_ ?_
              · rw [events_bind_of_some hrun]
                exact hclean.append hclean'
              · rw [events_bind_of_some hrun]
                exact List.forall_mem_append.mpr ⟨hanswered, hanswered'⟩
              · rw [herase, ensures_bind_of_some hrun]
                exact hdone'
          | failed hclean' hfailure' herror' =>
              refine failed ?_ (exists_event_of_some hrun hfailure') ?_
              · rw [events_bind_of_some hrun]
                exact hclean.append hclean'
              · rw [herase]
                exact Guarded.bind_of_some hrun herror'
          | tainted hwrong =>
              refine tainted ?_
              rw [events_bind_of_some hrun]
              exact hwrong.append_right
  | failed hclean hfailure herror =>
      cases (AfterError.passed hclean herror).bind he with
      | passed hclean' herror' => exact failed hclean' (exists_event_bind hfailure) herror'
      | tainted hwrong => exact tainted hwrong
  | tainted hwrong =>
      refine tainted ?_
      rw [events_bind]
      exact hwrong.append_left

/-- A silent first part. -/
theorem bind_lift {x : Prog σ α} {f : α → Traced ε σ β} {Q' E' : β → σ → Prop} (h : Ensures x s Q)
    (hf : ∀ a s', Q a s' → Relays P M F g (f a) s' Q' E') :
    Relays P M F g (liftM x >>= f) s Q' E' :=
  (lift (E := fun _ _ => False) h).bind hf fun _ _ => False.elim

/-- A silent first part of which nothing is asked. -/
theorem bind_skip {x : Prog σ α} {f : α → Traced ε σ β} {Q' E' : β → σ → Prop}
    (hf : ∀ a s', Relays P M F g (f a) s' Q' E') : Relays P M F g (liftM x >>= f) s Q' E' :=
  bind_lift (Q := fun _ _ => True) (fun _ _ _ => trivial) fun a s' _ => hf a s'

/-- An event that is right and reports no failure. -/
theorem bind_emit {e : σ → ε} {f : Unit → Traced ε σ β} {Q' E' : β → σ → Prop} (hP : P (e s))
    (hM : M (e s)) (hF : ¬ F (e s)) (hf : Relays P M F g (f ()) s Q' E') :
    Relays P M F g (emit e >>= f) s Q' E' := by
  have hall : ∀ {R : ε → Prop}, R (e s) → ∀ e' ∈ (emit e).events s, R e' :=
    fun h => List.forall_mem_singleton.mpr h
  have hemit : Relays P M F g (emit e) s (fun _ s' => s' = s) fun _ _ => False :=
    fine (hall ⟨hP, hM⟩) (hall hF) (Ensures.pure rfl)
  refine hemit.bind ?_ fun _ _ => False.elim
  rintro _ _ rfl
  exact hf

theorem ite {c : Prop} [Decidable c] {y : Traced ε σ α} (hx : c → Relays P M F g x s Q E)
    (hy : ¬ c → Relays P M F g y s Q E) : Relays P M F g (if c then x else y) s Q E := by
  split
  · exact hx ‹c›
  · exact hy ‹¬ c›

/-- What the program ensures anyway. -/
theorem and_ensures {R : α → σ → Prop} (h : Relays P M F g x s Q E) (h' : Ensures x.erase s R) :
    Relays P M F g x s (fun a s' => Q a s' ∧ R a s') fun a s' => E a s' ∧ R a s' := by
  cases h with
  | fine hclean hanswered hdone =>
      exact fine hclean hanswered fun a s' hrun => ⟨hdone a s' hrun, h' a s' hrun⟩
  | failed hclean hfailure herror =>
      exact failed hclean hfailure ⟨fun a s' hrun => ⟨herror.1 a s' hrun, h' a s' hrun⟩, herror.2⟩
  | tainted hwrong => exact tainted hwrong

/-- With what has been reported. -/
theorem listen (h : Relays P M F g x s Q E) : Relays P M F g (Traced.listen x) s
    (fun r s' => Q r.1 s' ∧ ∀ e ∈ r.2, ¬ F e) fun r s' => E r.1 s' ∧ ∃ e ∈ r.2, F e := by
  have hrun : ∀ {r s'}, (Traced.listen x).erase s = some (r, s') →
      x.erase s = some (r.1, s') ∧ r.2 = x.events s := by
    rintro ⟨a, es⟩ s' hlisten
    obtain ⟨⟨a', t⟩, hx, heq⟩ := Option.map_eq_some_iff.mp hlisten
    obtain ⟨hr, rfl⟩ := Prod.mk.inj heq
    obtain ⟨rfl, rfl⟩ := Prod.mk.inj hr
    exact ⟨hx, rfl⟩
  cases h with
  | fine hclean hanswered hdone =>
      refine fine hclean hanswered fun r s' hlisten => ?_
      obtain ⟨hx, hr⟩ := hrun hlisten
      rw [hr]
      exact ⟨hdone _ _ hx, hanswered⟩
  | failed hclean hfailure herror =>
      refine failed hclean hfailure ⟨fun r s' hlisten => ?_, fun hg => ?_⟩
      · obtain ⟨hx, hr⟩ := hrun hlisten
        rw [hr]
        exact ⟨herror.1 _ _ hx, hfailure⟩
      · obtain ⟨a, s', hx⟩ := herror.2 hg
        exact ⟨_, s', Option.map_eq_some_iff.mpr ⟨_, hx, rfl⟩⟩
  | tainted hwrong => exact tainted hwrong

/-- The result of a first part is used although it has failed: a failure there is one of the branches
that go wrong (`hM`), and what follows reports something wrong. -/
theorem bind_used {P' : ε → Prop} {f : α → Traced ε σ β} {Q' E' : β → σ → Prop}
    (hx : Relays P' (fun _ => True) F True x s Q E) (hclean : ∀ e, P' e → ¬ F e → P e ∧ M e)
    (hM : ∀ e, P' e → F e → ¬ M e) (hf : ∀ a s', Q a s' → Relays P M F g (f a) s' Q' E')
    (hused : ∀ a s', E a s' → ∃ e ∈ (f a).events s', ¬ P e) : Relays P M F g (x >>= f) s Q' E' := by
  cases hx with
  | fine hP' hanswered hdone =>
      have hx : Relays P M F g x s Q fun _ _ => False :=
        fine (fun e he => hclean e (hP' e he).1 (hanswered e he)) hanswered hdone
      exact hx.bind hf fun _ _ => False.elim
  | failed hP' hfailure herror =>
      obtain ⟨a, s', hrun, hE⟩ := herror.total trivial
      obtain ⟨e, he, hF⟩ := hfailure
      refine tainted ⟨exists_event_of_some hrun (hused a s' hE), exists_event_bind ⟨e, he, ?_⟩⟩
      exact hM e (hP' e he).1 hF
  | tainted hwrong =>
      obtain ⟨-, e, -, hnot⟩ := hwrong
      exact absurd trivial hnot

/-- **All failures are passed on exactly when no branch goes wrong.** -/
theorem passed_on_iff (h : Relays P M F g x s Q E) :
    (((∃ e ∈ x.events s, F e) → Guarded g x.erase s E) ∧ ∀ e ∈ x.events s, P e) ↔
      ∀ e ∈ x.events s, M e := by
  cases h with
  | fine hclean hanswered _ =>
      refine iff_of_true ⟨?_, fun e he => (hclean e he).1⟩ fun e he => (hclean e he).2
      rintro ⟨e, he, hF⟩
      exact absurd hF (hanswered e he)
  | failed hclean _ herror =>
      exact iff_of_true ⟨fun _ => herror, fun e he => (hclean e he).1⟩ fun e he => (hclean e he).2
  | tainted hwrong =>
      obtain ⟨⟨e, he, hP⟩, e', he', hM⟩ := hwrong
      exact iff_of_false (fun h => hP (h.2 e he)) fun h => hM (h e' he')

end Relays

end Errors

end Traced

end Machine
