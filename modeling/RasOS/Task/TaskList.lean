import RasOS.Task.TaskSpec
import RasOS.Lib.Run
import RasOS.Fs.OneFile
import RasOS.Fs.OpenSpec

set_option autoImplicit false

/-! # The list of tasks

`task_new` and `task_switch` keep the list in order. `task_free` never does: it leaves `task_tail` at
the freed task when that was the last one, and the `prev` of the next task when it was not. -/

namespace RasOS

open Machine

/-- The links of a task. -/
def taskNode (s : Kernel) (task : UInt32) : Option (UInt32 × UInt32) :=
  (taskK.read s.live task).map fun t => (t.next, t.prev)

/-- The list is made of the tasks `l`, in this order, and one of them is the current one. -/
structure TaskList (s : Kernel) (l : List UInt32) : Prop where
  null : 0 ∉ l
  nodup : l.Nodup
  linked : Linked (taskNode s) 0 0 l
  head : s.task_head = l.headD 0
  tail : s.task_tail = l.getLastD 0
  current : if l = [] then s.current_task = 0 else s.current_task ∈ l

theorem taskNode_of_live {s : Kernel} {task : UInt32} {t : Task}
    (h : s.live task = some (taskK.inj t)) : taskNode s task = some (t.next, t.prev) := by
  rw [taskNode, Kind.read_eq_some.mpr h]
  rfl

theorem taskNode_congr {s s' : Kernel} {task : UInt32} (h : s'.live task = s.live task) :
    taskNode s' task = taskNode s task := by
  rw [taskNode, taskNode, Kind.read, Kind.read, h]

theorem Linked.live {s : Kernel} {p task : UInt32} {l : List UInt32}
    (h : Linked (taskNode s) 0 p l) (hmem : task ∈ l) : ∃ t, s.live task = some (taskK.inj t) := by
  obtain ⟨pre, post, rfl⟩ := List.append_of_mem hmem
  have hnode := h.node_eq
  rw [taskNode, Option.map_eq_some_iff] at hnode
  obtain ⟨t, ht, -⟩ := hnode
  exact ⟨t, Kind.read_eq_some.mp ht⟩

theorem TaskList.tailLive {s : Kernel} {l : List UInt32} (h : TaskList s l) : TailLive s := by
  rcases List.eq_nil_or_concat l with rfl | ⟨l', last, rfl⟩
  · exact Or.inl h.head
  · refine Or.inr ?_
    rw [h.tail, List.concat_eq_append, List.getLastD_concat]
    exact Linked.live h.linked (by simp)

/-! ## Creating and switching -/

theorem TaskNew.wf {s s' : Kernel} {process task : UInt32} (h : TaskNew s process task s') :
    s'.WF := by
  cases h with
  | first s5 hsince => exact hsince.wf.of_live rfl fun _ o ho => ⟨o, ho⟩
  | append s5 hsince hhead chunk ip hnew htask hstarts hmaps hmem last t hlast ht =>
      exact (Kernel.WF.write (hsince.wf.write hlast _) ht _).of_live rfl fun _ o ho => ⟨o, ho⟩

theorem TaskNew.ne_zero {s s' : Kernel} {process task : UInt32} (h : TaskNew s process task s') :
    task ≠ 0 := by
  cases h with
  | first s5 hsince hempty chunk ip hnew htask => exact hsince.wf.ne_zero htask
  | append s5 hsince hhead chunk ip hnew htask => exact hsince.wf.ne_zero htask

/-- A new task becomes the last one. -/
theorem TaskNew.taskList {s s' : Kernel} {process task : UInt32} {l : List UInt32}
    (h : TaskNew s process task s') (hlist : TaskList s l) : TaskList s' (l ++ [task]) := by
  have hne := h.ne_zero
  cases h with
  | first s5 hsince hempty chunk ip hnew htask =>
      obtain rfl : l = [] := by
        cases l with
        | nil => rfl
        | cons t l =>
            have hhead := hlist.head
            rw [hempty] at hhead
            exact absurd (hhead ▸ List.mem_cons_self) hlist.null
      refine ⟨by simpa using hne.symm, by simp, ⟨?_, trivial⟩, rfl, rfl, ?_⟩
      · exact taskNode_of_live (t := initialTask chunk ip process) htask
      · simp
  | append s5 hsince hhead chunk ip hnew htask hstarts hmaps hmem last t hlast ht =>
      rcases List.eq_nil_or_concat l with rfl | ⟨l', u, hl⟩
      · exact absurd hlist.head hhead
      rw [List.concat_eq_append] at hl
      subst hl
      have htail : s.task_tail = u := by rw [hlist.tail, List.getLastD_concat]
      -- the old tasks are live in `s`, the new one is not
      have hold : ∀ v ∈ l' ++ [u], v ≠ task ∧ s5.live v = s.live v := by
        intro v hv
        obtain ⟨tv, htv⟩ := Linked.live hlist.linked hv
        refine ⟨?_, ?_⟩
        · rintro rfl
          rw [hnew] at htv
          cases htv
        · rw [htv, hsince.object _ _ htv]
      have hu := hold u (by simp)
      have hnotin : task ∉ l' ++ [u] := fun hin => (hold task hin).1 rfl
      rw [htail] at hlast ht ⊢
      have ht' : t = initialTask chunk ip process := by
        rw [Kind.write_of_ne _ _ _ hu.1.symm, htask] at ht
        exact (Kind.inj_injective _ (Option.some.inj ht)).symm
      subst ht'
      have hcurrent : s5.current_task = s.current_task := congrArg Statics.current_task hsince.statics
      have hhead5 : s5.task_head = s.task_head := congrArg Statics.task_head hsince.statics
      refine ⟨?_, ?_, hlist.linked.append (fun v hv => ?_) (fun q hq => ?_) ?_, ?_, ?_, ?_⟩
      · intro hmem0
        rcases List.mem_append.mp hmem0 with h0 | h0
        · exact hlist.null h0
        · exact hne (List.mem_singleton.mp h0).symm
      · exact List.nodup_append.mpr ⟨hlist.nodup, List.nodup_singleton _, fun a ha b hb => by
          rw [List.mem_singleton.mp hb]
          exact fun heq => hnotin (heq ▸ ha)⟩
      · have hv' := hold v (by simp [hv])
        have hvu : v ≠ u := by
          rintro rfl
          have hnodup := hlist.nodup
          simp [List.nodup_append] at hnodup
          exact hnodup.2 v hv rfl
        apply taskNode_congr
        calc taskK.write (taskK.write s5.live u _) task _ v
            = taskK.write s5.live u { last with next := task } v := Kind.write_of_ne _ _ _ hv'.1
          _ = s5.live v := Kind.write_of_ne _ _ _ hvu
          _ = s.live v := hv'.2
      · have hq' := taskNode_of_live (s := s) (hu.2.symm.trans hlast)
        rw [hq] at hq'
        obtain ⟨-, hprev⟩ := Prod.mk.inj (Option.some.inj hq')
        rw [hprev]
        exact taskNode_of_live (t := { last with next := task })
          ((Kind.write_of_ne _ _ _ hu.1).trans (Kind.write_self ..))
      · exact taskNode_of_live (t := { initialTask chunk ip process with prev := u })
          (Kind.write_self ..)
      · show s5.task_head = _
        rw [hhead5, hlist.head]
        cases l' with
        | nil => rfl
        | cons v l' => rfl
      · show task = _
        rw [List.getLastD_concat]
      · have hcur := hlist.current
        rw [if_neg (by simp)] at hcur ⊢
        show s5.current_task ∈ _
        rw [hcurrent]
        exact List.mem_append_left _ hcur

theorem taskSwitch_spec {s s' : Kernel} {task : UInt32} {r : Int}
    (h : taskSwitch task s = some (r, s')) :
    ∃ d, s' = { s with current_task := task, current_directory := d } := by
  have hspec : Ensures (taskSwitch task) s fun _ s' =>
      ∃ d, s' = { s with current_task := task, current_directory := d } := by
    unfold taskSwitch pagingSwitch
    refine ensures_assign (ensures_load fun t _ => ?_)
    refine Ensures.bind (Q := fun _ s' => ∃ d, s' = { s with
      current_task := task, current_directory := d }) ?_ ?_
    · refine ensures_load fun d _ => ?_
      intro u s' hs'
      exact ⟨d, (Prod.mk.inj (Option.some.inj hs')).2.symm⟩
    · rintro _ s' hs'
      exact Ensures.pure hs'
  exact hspec r s' h

theorem TaskList.switch {s : Kernel} {l : List UInt32} {task d : UInt32} (h : TaskList s l)
    (hmem : task ∈ l) :
    TaskList { s with current_task := task, current_directory := d } l := by
  refine ⟨h.null, h.nodup, h.linked.congr fun _ _ => rfl, h.head, h.tail, ?_⟩
  rw [if_neg (List.ne_nil_of_mem hmem)]
  exact hmem

/-! ## Freeing -/

/-- `task_list_remove` changes at most the task before the removed one, and never `task_tail`. -/
theorem taskListRemove_frame {s : Kernel} {task : UInt32} {t : Task}
    (ht : s.live task = some (taskK.inj t)) :
    Ensures (taskListRemove task) s fun _ s' =>
      s'.task_tail = s.task_tail ∧ ∀ u, t.prev = 0 ∨ u ≠ t.prev → s'.live u = s.live u := by
  have hunlink : Ensures (taskUnlink task) s fun _ s' =>
      s'.task_tail = s.task_tail ∧ ∀ u, t.prev = 0 ∨ u ≠ t.prev → s'.live u = s.live u := by
    refine ensures_load fun t' ht' => ?_
    obtain rfl : t' = t := Kind.inj_injective _ (Option.some.inj (ht'.symm.trans ht))
    refine ensures_fetch (Ensures.ite (fun hprev => ensures_load fun p hp => ?_) fun _ => ?_)
    · intro a s' hs'
      obtain ⟨-, rfl⟩ := store_eq_some.mp hs'
      refine ⟨rfl, fun u hu => ?_⟩
      rcases hu with h0 | hu
      · exact absurd h0 hprev
      · exact Kind.write_of_ne _ _ _ hu
    · refine Ensures.ite (fun _ => ?_) fun _ => Ensures.pure ⟨rfl, fun _ _ => rfl⟩
      intro a s' hs'
      obtain ⟨-, rfl⟩ := Prod.mk.inj (Option.some.inj hs')
      exact ⟨rfl, fun _ _ => rfl⟩
  refine Ensures.bind hunlink fun _ s1 h1 => ensures_fetch ?_
  refine Ensures.ite (fun _ => ?_) fun _ => Ensures.pure h1
  refine Ensures.bind (Q := fun _ s' => s' = s1) ?_ ?_
  · refine ensures_fetch (ensures_load fun c _ => Ensures.ite (fun _ => ?_) fun _ => Ensures.pure rfl)
    intro a s' hs'
    exact (Prod.mk.inj (Option.some.inj hs')).2.symm
  · rintro next s' rfl a s'' hs''
    obtain ⟨-, rfl⟩ := Prod.mk.inj (Option.some.inj hs'')
    exact h1

/-- What `task_free` leaves as it was. -/
theorem taskFree_frame {s s' : Kernel} {task : UInt32} {t : Task} {r : Int} (hwf : s.WF)
    (ht : s.live task = some (taskK.inj t)) (h : taskFree task s = some (r, s')) :
    s'.task_tail = s.task_tail ∧ ∀ u o, u ≠ task → t.prev = 0 ∨ u ≠ t.prev → o.isPaging = false →
      s.live u = some o → s'.live u = some o := by
  have hspec : Ensures (taskFree task) s fun _ s' =>
      s'.task_tail = s.task_tail ∧ ∀ u o, u ≠ task → t.prev = 0 ∨ u ≠ t.prev →
        o.isPaging = false → s.live u = some o → s'.live u = some o := by
    refine ensures_load fun t' ht' => ?_
    obtain rfl : t' = t := Kind.inj_injective _ (Option.some.inj (ht'.symm.trans ht))
    refine Ensures.bind ((keepsPaging_free t'.page_directory).ensures s) fun _ s1 h1 => ?_
    have hframe := h1 hwf
    have ht1 : s1.live task = some (taskK.inj t') := (hframe.object _ _ rfl).mpr ht
    refine Ensures.bind (taskListRemove_frame ht1) ?_
    rintro _ s2 ⟨htail, hlive⟩
    refine Ensures.bind (Q := fun _ s' => s'.task_tail = s2.task_tail ∧
      s'.live = Function.update s2.live task none) ?_ ?_
    · intro a s' hs'
      obtain ⟨-, rfl⟩ := kfree_eq_some.mp hs'
      exact ⟨rfl, rfl⟩
    · rintro _ s3 ⟨htail3, hlive3⟩
      refine Ensures.pure ⟨?_, fun u o hu hprev ho hold => ?_⟩
      · rw [htail3, htail]
        exact congrArg Statics.task_tail hframe.statics
      · rw [hlive3, Function.update_of_ne hu, hlive u hprev]
        exact (hframe.object _ _ ho).mpr hold
  exact hspec r s' h

/-- **Freeing breaks the list.** -/
theorem TaskList.free {s s' : Kernel} {l : List UInt32} {task : UInt32} {r : Int} (hwf : s.WF)
    (hlist : TaskList s l) (hmem : task ∈ l) (h : taskFree task s = some (r, s')) :
    ¬ TaskList s' (l.erase task) := by
  intro hlist'
  obtain ⟨pre, post, rfl⟩ := List.append_of_mem hmem
  have hnodup := hlist.nodup
  obtain ⟨hpre, hpost⟩ : task ∉ pre ∧ task ∉ post := by
    rw [List.nodup_append, List.nodup_cons] at hnodup
    exact ⟨fun hin => hnodup.2.2 task hin task List.mem_cons_self rfl, hnodup.2.1.1⟩
  have hne : task ≠ 0 := fun h0 => hlist.null (h0 ▸ hmem)
  have hlast : pre.getLastD 0 ≠ task := by
    rcases List.eq_nil_or_concat pre with rfl | ⟨pre', v, hv⟩
    · exact hne.symm
    · rw [List.concat_eq_append] at hv
      rw [hv, List.getLastD_concat]
      rintro rfl
      exact hpre (by simp [hv])
  rw [List.erase_append_right _ hpre, List.erase_cons_head] at hlist'
  obtain ⟨t, ht⟩ := Linked.live hlist.linked hmem
  have hnode := hlist.linked.node_eq
  rw [taskNode_of_live ht] at hnode
  obtain ⟨-, hprev⟩ := Prod.mk.inj (Option.some.inj hnode)
  obtain ⟨htail, hobject⟩ := taskFree_frame hwf ht h
  cases post with
  | nil =>
      -- the freed task was the last one, and `task_tail` still points to it
      have htail' := hlist'.tail
      rw [htail, hlist.tail, List.getLastD_concat, List.append_nil] at htail'
      exact hlast htail'.symm
  | cons u post =>
      -- the next task still has the freed one before it
      obtain ⟨tu, htu⟩ := Linked.live hlist.linked (show u ∈ pre ++ task :: u :: post by simp)
      have hut : u ≠ task := fun heq => hpost (by simp [heq])
      have hup : t.prev = 0 ∨ u ≠ t.prev := by
        rw [hprev]
        rcases List.eq_nil_or_concat pre with rfl | ⟨pre', v, hv⟩
        · exact Or.inl rfl
        · refine Or.inr ?_
          rw [List.concat_eq_append] at hv
          rw [hv, List.getLastD_concat]
          rintro rfl
          rw [List.nodup_append] at hnodup
          exact hnodup.2.2 u (by simp [hv]) u (by simp) rfl
      have hnew := taskNode_of_live (hobject u _ hut hup rfl htu)
      have hold := hlist.linked
      rw [List.append_cons] at hold
      have hnode1 := hold.node_eq
      rw [taskNode_of_live htu, List.getLastD_concat] at hnode1
      have hnode2 := hlist'.linked.node_eq
      rw [hnew] at hnode2
      have h1 := (Prod.mk.inj (Option.some.inj hnode1)).2
      have h2 := (Prod.mk.inj (Option.some.inj hnode2)).2
      exact hlast (h2.symm.trans h1)

/-- Freeing a task with a directory returns. -/
theorem taskFree_total {s : Kernel} {task : UInt32} {t : Task} {m : Nat → UInt32} (hwf : s.WF)
    (ht : s.live task = some (taskK.inj t)) (hmaps : Maps s t.page_directory m)
    (hprev : t.prev = 0 ∨ ∃ p, s.live t.prev = some (taskK.inj p)) :
    Total (taskFree task) s fun r _ => r = OK := by
  rw [taskFree, total_load ht]
  refine Total.bind ((pagingFree4gb_total hmaps).keeps (keepsPaging_free _)) ?_
  rintro _ s1 ⟨-, h1⟩
  have hframe := h1 hwf
  have ht1 : s1.live task = some (taskK.inj t) := (hframe.object _ _ rfl).mpr ht
  have hunlink : Total (taskUnlink task) s1 fun _ s' => ∃ t', s'.live task = some (taskK.inj t') := by
    rw [taskUnlink, total_load ht1, total_fetch]
    by_cases h0 : t.prev = 0
    · rw [if_neg (not_not_intro h0)]
      split
      · exact ⟨(), _, assign_apply _ _, t, ht1⟩
      · exact total_pure.mpr ⟨t, ht1⟩
    · rw [if_pos h0]
      obtain ⟨p, hp⟩ := hprev.resolve_left h0
      have hp1 : s1.live t.prev = some (taskK.inj p) := (hframe.object _ _ rfl).mpr hp
      rw [total_load hp1]
      refine ⟨(), _, store_of_live hp1 _, ?_⟩
      by_cases heq : task = t.prev
      · exact ⟨_, by rw [heq]; exact Kind.write_self ..⟩
      · exact ⟨t, (Kind.write_of_ne _ _ _ heq).trans ht1⟩
  have hremove : Total (taskListRemove task) s1 fun _ s' =>
      ∃ t', s'.live task = some (taskK.inj t') := by
    refine Total.bind hunlink ?_
    rintro _ s2 ⟨t2, ht2⟩
    rw [taskCurrent, total_fetch]
    by_cases hcurrent : task = s2.current_task
    · rw [if_pos hcurrent, taskGetNext, taskCurrent]
      have hnext : Total (do
          let current ← fetch fun s => s.current_task
          let t ← load taskK current
          if t.next = 0 then fetch fun s => s.task_head else return t.next) s2
            fun (_ : UInt32) s' => s' = s2 := by
        rw [total_fetch, total_load (by rw [← hcurrent]; exact ht2)]
        split
        · exact ⟨_, _, fetch_apply _ _, rfl⟩
        · exact total_pure.mpr rfl
      refine Total.bind hnext ?_
      rintro next s3 rfl
      exact ⟨(), _, assign_apply _ _, t2, ht2⟩
    · rw [if_neg hcurrent]
      exact total_pure.mpr ⟨t2, ht2⟩
  refine Total.bind hremove ?_
  rintro _ s4 ⟨t4, ht4⟩
  rw [total_bind_of_some (kfree_of_live ht4), total_pure]

/-! ## Runs -/

/-- The operations of the task list. -/
inductive TaskOp
  | new (process : UInt32)
  | free (task : UInt32)
  | switch (task : UInt32)

def TaskOp.isFree : TaskOp → Bool
  | .free _ => true
  | _ => false

/-- The kernel, and the live tasks in the order of their creation. -/
structure TaskState where
  kernel : Kernel
  tasks : List UInt32

/-- One operation; `task_free` and `task_switch` are given live tasks. -/
def taskStep (s : TaskState) : TaskOp → Option TaskState
  | .new process => (taskNew process s.kernel).map fun r =>
      ⟨r.2, if ISERR r.1 then s.tasks else s.tasks ++ [r.1]⟩
  | .free task =>
      if task ∈ s.tasks then
        (taskFree task s.kernel).map fun r => ⟨r.2, s.tasks.erase task⟩
      else none
  | .switch task =>
      if task ∈ s.tasks then (taskSwitch task s.kernel).map fun r => ⟨r.2, s.tasks⟩ else none

def TaskState.Ok (s : TaskState) : Prop := TaskList s.kernel s.tasks

theorem TaskNew.not_iserr {s s' : Kernel} {process task : UInt32} (h : TaskNew s process task s') :
    ISERR task = false := by
  cases h with
  | first s5 hsince hempty chunk ip hnew htask => exact hsince.wf.not_iserr htask
  | append s5 hsince hhead chunk ip hnew htask => exact hsince.wf.not_iserr htask

/-- Creating and switching keep the list in order. -/
theorem taskStep_ok {s s' : TaskState} {op : TaskOp} (hwf : s.kernel.WF) (hok : s.Ok)
    (hop : op.isFree = false) (h : taskStep s op = some s') : s'.kernel.WF ∧ s'.Ok := by
  cases op with
  | new process =>
      obtain ⟨⟨task, k⟩, hnew, rfl⟩ := Option.map_eq_some_iff.mp h
      rcases taskNew_spec hwf process with ⟨-, hstop⟩ | ⟨-, task', k', -, hrun, htask, -⟩
      · rw [hstop] at hnew
        cases hnew
      · obtain ⟨rfl, rfl⟩ := Prod.mk.inj (Option.some.inj (hrun.symm.trans hnew))
        refine ⟨htask.wf, ?_⟩
        show TaskList k' (if ISERR task' then s.tasks else s.tasks ++ [task'])
        rw [htask.not_iserr]
        exact htask.taskList hok
  | free task => cases hop
  | switch task =>
      rw [taskStep] at h
      split at h
      · rename_i hmem
        obtain ⟨⟨r, k⟩, hswitch, rfl⟩ := Option.map_eq_some_iff.mp h
        obtain ⟨d, rfl⟩ := taskSwitch_spec hswitch
        exact ⟨hwf.of_live rfl fun _ o ho => ⟨o, ho⟩, hok.switch hmem⟩
      · cases h

theorem taskStep_broken {s s' : TaskState} {op : TaskOp} (hwf : s.kernel.WF) (hok : s.Ok)
    (hop : op.isFree = true) (h : taskStep s op = some s') : ¬ s'.Ok := by
  cases op with
  | new process => cases hop
  | switch task => cases hop
  | free task =>
      rw [taskStep] at h
      split at h
      · rename_i hmem
        obtain ⟨⟨r, k⟩, hfree, rfl⟩ := Option.map_eq_some_iff.mp h
        exact TaskList.free hwf hok hmem hfree
      · cases h

/-- **The task list.** It is in order in every state of a run exactly when no task is freed. -/
theorem taskList_run_iff {s : TaskState} (hwf : s.kernel.WF) (hok : TaskList s.kernel s.tasks)
    (ops : List TaskOp) :
    AllStates taskStep (fun s => TaskList s.kernel s.tasks) s ops ↔
      AllSteps taskStep (fun _ op => op.isFree = false) s ops :=
  allStates_iff_allSteps (I := fun s => s.kernel.WF)
    (fun _ _ _ hI hP hC h => taskStep_ok hI hP hC h)
    (fun _ _ _ hI hP hC h => taskStep_broken hI hP (by simpa using hC) h) ops s hwf hok

/-- A kernel with a process to create tasks for, at the first two blocks of the heap. -/
def oneProcessKernel : Kernel where
  heap := {
    entries := fun i => if i = 0 then 0xC1 else if i = 1 then 0x01 else HEAP_BLOCK_ENTRY_FREE
    total := 25600
    start_address := RASOS_HEAP_ADDRESS
    total_lt := kheapTotal_lt }
  mem := fun _ => 0
  live := fun ptr => if ptr = 0x01000000 then
    some (.process { filetype := PROCESS_FILETYPE_BINARY }) else none
  drive := fun _ _ => none
  requests := []
  disk := {}
  file_descriptors := fun _ => 0
  processes := fun _ => 0
  current_process := 0
  current_task := 0
  task_head := 0
  task_tail := 0
  current_directory := 0

theorem oneProcessKernel_wf : oneProcessKernel.WF where
  start := rfl
  total := rfl
  block := by
    intro ptr o ho
    change (if ptr = 0x01000000 then _ else none) = some o at ho
    split at ho
    · rename_i hptr
      refine ⟨0, 2, ⟨by decide, by decide, fun i h1 h2 => ?_⟩, hptr⟩
      rcases Nat.lt_or_ge i 1 with hi | hi
      · obtain rfl : i = 0 := by omega
        rfl
      · obtain rfl : i = 1 := by omega
        rfl
    · cases ho

theorem oneProcessKernel_taskList : TaskList oneProcessKernel [] :=
  ⟨List.not_mem_nil, List.nodup_nil, trivial, rfl, rfl, rfl⟩

theorem oneProcessKernel_room : TaskRoom oneProcessKernel 0x01000000 where
  blocks := by
    have hcount := le_freeCount oneProcessKernel.heap 2 25600 (Nat.le_refl _) fun i h1 h2 => by
        show isBlockTaken (if (i : Int) = 0 then _ else if (i : Int) = 1 then _ else _) = false
        rw [if_neg (by omega), if_neg (by omega)]
        rfl
    omega
  starts := ⟨_, _, rfl, .binary (by decide)⟩

/-- Two tasks are created, and the list is in order all along. -/
theorem taskList_run_two :
    AllStates taskStep (fun s => TaskList s.kernel s.tasks) ⟨oneProcessKernel, []⟩
        [.new 0x01000000, .new 0x01000000] ↔
      AllSteps taskStep (fun _ op => op.isFree = false) ⟨oneProcessKernel, []⟩
        [.new 0x01000000, .new 0x01000000] :=
  taskList_run_iff oneProcessKernel_wf oneProcessKernel_taskList _

/-- One task is created and freed: the list is not empty again. -/
theorem taskList_free_dangling :
    ∃ task s', runFrom taskStep ⟨oneProcessKernel, []⟩ [.new 0x01000000, .free task] = some s' ∧
      s'.kernel.task_tail = task ∧ ¬ TaskList s'.kernel s'.tasks := by
  rcases taskNew_spec oneProcessKernel_wf 0x01000000 with ⟨hno, -⟩ | ⟨-, task, k, -, hnew, htask, -⟩
  · exact absurd ⟨oneProcessKernel_room, Or.inl (Or.inl rfl)⟩ hno
  · have hok : TaskList k [task] := htask.taskList oneProcessKernel_taskList
    obtain ⟨t, ht, hprev, hmaps⟩ : ∃ t, k.live task = some (taskK.inj t) ∧ t.prev = 0 ∧
        Maps k t.page_directory (identityEntry taskFlags) := by
      cases htask with
      | first s5 hsince hempty chunk ip hfree hlive hstarts hmaps =>
          exact ⟨_, hlive, rfl, hmaps.congr fun _ _ _ hq => hq⟩
      | append s5 hsince hhead => exact absurd rfl hhead
    obtain ⟨r, k', hfree, rfl⟩ := taskFree_total htask.wf ht hmaps (Or.inl hprev)
    have hbroken := TaskList.free htask.wf hok List.mem_cons_self hfree
    have htail := (taskFree_frame htask.wf ht hfree).1
    refine ⟨task, ⟨k', [task].erase task⟩, ?_, htail.trans hok.tail, hbroken⟩
    have hstep : taskStep ⟨oneProcessKernel, []⟩ (.new 0x01000000) = some ⟨k, [task]⟩ := by
      rw [taskStep, hnew, Option.map_some, htask.not_iserr]
      rfl
    rw [runFrom, hstep, Option.bind_some, runFrom, taskStep, if_pos List.mem_cons_self, hfree]
    rfl

end RasOS
