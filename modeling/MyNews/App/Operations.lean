import MyNews.App.Feed
import MyNews.LoginViewController

/-!
# The app in a process

The app of one container, and the process with its accounts.

* `Performed`: the observers that the app registers and the writes that it makes are those of
  operations on the record.
* `performed_step`, `performed_run`: those of a step, and of a run.
* `app_in_process`: in a process in which a container was entered, these operations are all about
  the account of the first entry.
-/

namespace MyNews

open Session
open ProfileViewController (newYear2020)

/-! ## The operations -/

namespace Session.Operation

/-- The operation registers an observer. -/
def observes : Operation → Bool
  | isUserProfileEmpty | currentCity | getUserSources | configureUserInfo => true
  | _ => false

def writes : Operation → List Write
  | saveUserSources newSources => [SourcesViewModel.saveUserSources newSources]
  | handleDismis form => (ProfileViewController.handleDismis form).getD []
  | addUserItems => [OnlineRepository.addUserItems]
  | _ => []

/-- The uses of the record of `uid`. -/
def accesses (uid : Uid) (op : Operation) : List Access :=
  if op.observes then [.observe uid] else op.writes.map (.setValue uid)

/-- Under a file-level `user`, an operation uses the record of this account and leaves the
process. -/
theorem perform_eq {p : Process} {uid : Uid} (hu : p.user = some (some uid)) {op : Operation}
    (hop : op ≠ addUserItems) : p.perform op = some (op.accesses uid, p) := by
  have hforce : p.forceUser = some (uid, p) := by
    rw [forceUser_eq_some, hu]
    exact ⟨rfl, by rw [← hu]⟩
  cases op with
  | addUserItems => exact (hop rfl).elim
  | saveUserSources newSources => rw [Process.perform, hforce]; rfl
  | handleDismis form =>
    cases hw : ProfileViewController.handleDismis form with
    | none => simp [Process.perform, accesses, observes, writes, hw]
    | some l => simp [Process.perform, accesses, observes, writes, hw, hforce]
  | _ => rw [Process.perform, Process.observe, hforce]; rfl

end Session.Operation

/-- The operation that registers the observer. -/
def Observer.operation : Observer → Operation
  | .check => .isUserProfileEmpty
  | .home => .getUserSources
  | .profile _ => .configureUserInfo
  | .sources _ => .getUserSources

namespace App

/-- The operations that have registered the observers, in this order. -/
def observed (a : App) : List Operation :=
  (a.bus.observers.map Prod.fst).map Observer.operation

/-- The writes that are not answered. -/
def written (a : App) : List Write := a.node.pending.map Pending.write

/-- From `a` to `a'` the app performs the operations, and `n` of its writes are answered. -/
structure Performed (a a' : App) (ops : List Operation) (n : Nat) : Prop where
  observers : a'.observed = a.observed ++ ops.filter Operation.observes
  writes : ∃ answered, a.written ++ ops.flatMap Operation.writes = answered ++ a'.written ∧
    answered.length = n
  ne : ∀ op ∈ ops, op ≠ .addUserItems

theorem Performed.of_eq {a a' : App} (hobserved : a'.observed = a.observed)
    (hwritten : a'.written = a.written) : Performed a a' [] 0 where
  observers := by simp [hobserved]
  writes := ⟨[], by simp [hwritten], rfl⟩
  ne := by simp

theorem performed_congr {a b a' : App} (hobserved : b.observed = a.observed)
    (hwritten : b.written = a.written) {n : Nat} (h : ∃ ops, Performed b a' ops n) :
    ∃ ops, Performed a a' ops n := by
  obtain ⟨ops, h⟩ := h
  exact ⟨ops, by rw [h.observers, hobserved], by rw [← hwritten]; exact h.writes, h.ne⟩

theorem Performed.trans {a m a' : App} {ops ops' : List Operation} {n n' : Nat}
    (h : Performed a m ops n) (h' : Performed m a' ops' n') :
    Performed a a' (ops ++ ops') (n + n') := by
  obtain ⟨answered, hw, hn⟩ := h.writes
  obtain ⟨answered', hw', hn'⟩ := h'.writes
  refine ⟨?_, ⟨answered ++ answered', ?_, ?_⟩, ?_⟩
  · rw [h'.observers, h.observers, List.filter_append, List.append_assoc]
  · rw [List.flatMap_append, ← List.append_assoc, hw, List.append_assoc, hw', List.append_assoc]
  · rw [List.length_append, hn, hn']
  · intro op hop
    rcases List.mem_append.mp hop with hop | hop
    · exact h.ne op hop
    · exact h'.ne op hop

/-! ## What the parts of a step perform -/

theorem observed_update (a : App) (node : Replica Record Pending) :
    (a.update node).observed = a.observed := by
  simp only [observed, App.update]
  split
  · rfl
  · rw [Bus.labels_send]

/-- A new observer. -/
theorem performed_register {a a' : App} (o : Observer) {value : DataSnapshot}
    (hbus : a'.bus = a.bus.register o value) (hnode : a'.node = a.node) :
    ∃ ops, Performed a a' ops 0 := by
  have hobserves : o.operation.observes = true := by cases o <;> rfl
  refine ⟨[o.operation], ?_, ⟨[], ?_, rfl⟩, ?_⟩
  · simp [observed, hbus, Bus.register, hobserves]
  · cases o <;> simp [written, hnode, Observer.operation, Operation.writes]
  · cases o <;> simp [Observer.operation]

theorem performed_present (a : App) (screen : Screen) :
    ∃ ops, Performed a (a.present screen) ops 0 := by
  unfold App.present
  split
  · cases screen with
    | profile => exact performed_register (.profile a.profiles.length) rfl rfl
    | sources => exact ⟨[], .of_eq rfl rfl⟩
    | news => exact ⟨[], .of_eq rfl rfl⟩
  · exact ⟨[], .of_eq rfl rfl⟩

theorem performed_receive (a : App) (o : Observer) (value : DataSnapshot) :
    ∃ ops, Performed a (a.receive o value) ops 0 := by
  cases o with
  | check =>
    simp only [App.receive, block, userProfileIsEmpty]
    split
    · exact ⟨[], .of_eq rfl rfl⟩
    · exact performed_congr (a := a) (b := { a with
        received := a.received ++ [value], profileSegues := a.profileSegues ++ [a.presented] })
        rfl rfl (performed_present _ .profile)
    · exact ⟨[], .of_eq rfl rfl⟩
  | _ => exact ⟨[], .of_eq rfl rfl⟩

theorem performed_answer {a : App} {accepted : Bool} {node : Replica Record Pending}
    (hn : a.node.answer Pending.apply accepted = some node) :
    Performed a (a.update node) [] 1 where
  observers := by simp [observed_update]
  writes := by
    obtain ⟨p, ps, hp, rfl⟩ := Replica.answer_eq_some.mp hn
    exact ⟨[p.write], by simp [written, App.update, hp], rfl⟩
  ne := by simp

theorem performed_saveAnswered (a : App) (screen : Nat) (accepted : Bool) :
    ∃ ops, Performed a (a.saveAnswered screen accepted) ops 0 := by
  unfold saveAnswered
  split
  · exact ⟨[], .of_eq rfl rfl⟩
  · split
    · exact ⟨[], .of_eq rfl rfl⟩
    · simp only
      split <;> exact ⟨[], .of_eq rfl rfl⟩

/-- A save makes its writes. -/
theorem performed_save {a : App} {form : ProfileViewController.Form} {writes : List Write}
    (hw : ProfileViewController.handleDismis form = some writes)
    (profiles : List ProfileViewController) :
    ∃ ops, Performed a { a.setValues writes with profiles }.dismiss ops 0 := by
  have hobserved : ∀ (ws : List Write) (b : App), (b.setValues ws).observed = b.observed := by
    intro ws
    induction ws with
    | nil => exact fun _ => rfl
    | cons w ws ih => exact fun b => (ih (b.setValue w none)).trans (observed_update _ _)
  have hpending : (a.setValues writes).written = a.written ++ writes := by
    simp [written, node_setValues, Function.comp_def]
  refine ⟨[.handleDismis form], ?_, ⟨[], ?_, rfl⟩, by simp⟩
  · exact (hobserved writes a).trans (by simp [Operation.observes])
  · exact (congrArg (a.written ++ ·) (by simp [Operation.writes, hw])).trans hpending.symm

theorem performed_sources {a : App} {screen : Nat} {e : SourcesViewController.Event}
    {c c' : SourcesViewController} (he : ∀ error, e ≠ .saveAnswered error)
    (hs : SourcesViewController.step c e = some c') :
    ∃ ops, Performed a (a.sourcesAction screen e c') ops 0 := by
  cases e with
  | allSources response =>
    simp only [sourcesAction]
    split
    · exact performed_register (.sources screen) rfl rfl
    · exact ⟨[], .of_eq rfl rfl⟩
  | done =>
    refine ⟨[.saveUserSources c'.userSources], ?_, ⟨[], ?_, rfl⟩, by simp⟩
    · exact (observed_update { a with sources := a.sources.set screen c' } _).trans
        (by simp [observed, Operation.observes])
    · simp [written, sourcesAction, setValue, App.update, Replica.write, Operation.writes,
        SourcesViewController.handleDismis]
  | ok => exact ⟨[], .of_eq rfl rfl⟩
  | saveAnswered error => exact (he error rfl).elim
  | _ => exact ⟨[], .of_eq rfl rfl⟩

/-- The event answers a write. -/
def Event.isAnswer : Event → Bool
  | answer _ => true
  | _ => false

theorem performed_step {a a' : App} {e : Event} (h : step a e = some a') :
    ∃ ops, Performed a a' ops (if e.isAnswer then 1 else 0) := by
  cases (step_to h).2 with
  | receive i o value bus hd =>
    have hobserved : ({ a with bus } : App).observed = a.observed :=
      congrArg (List.map Observer.operation) (Bus.labels_deliver hd)
    exact performed_congr (a := a) (b := { a with bus }) hobserved rfl (performed_receive _ o value)
  | answer accepted node write hp hn => exact ⟨_, performed_answer hn⟩
  | saveAnswered accepted node write screen hp hn =>
    obtain ⟨ops, hops⟩ := performed_saveAnswered (a.update node) screen accepted
    exact ⟨_, (performed_answer hn).trans hops⟩
  | remote w => exact ⟨[], .of_eq (observed_update _ _) rfl⟩
  | pull hp hr => exact performed_register .home rfl rfl
  | newsRow row hp hr => exact performed_present a .news
  | dismissed hclosing => exact performed_register .home rfl rfl
  | completion toggle menuOption menu hexit hs =>
    unfold selectMenuOption
    split
    · exact performed_congr (a := a) (b := { a with menu }) rfl rfl (performed_present _ .sources)
    · exact performed_congr (a := a) (b := { a with menu }) rfl rfl (performed_present _ .profile)
    · exact ⟨[], .of_eq rfl rfl⟩
  | save screen c writes hc hopen hw => exact performed_save hw _
  | sources screen e c c' he hc hs => exact performed_sources he hs
  | _ => exact ⟨[], .of_eq rfl rfl⟩

theorem performed_run {s t : App} {es : List Event} (hrun : Machine.run step s es = some t) :
    ∃ ops, Performed s t ops (es.countP Event.isAnswer) := by
  refine Machine.run_history (I := fun es t => ∃ ops, Performed s t ops (es.countP Event.isAnswer))
    ⟨[], .of_eq rfl rfl⟩ ?_ hrun
  rintro es e m t - ⟨ops, hops⟩ hstep
  obtain ⟨ops', hops'⟩ := performed_step hstep
  rw [List.countP_append, List.countP_singleton]
  exact ⟨_, hops.trans hops'⟩

/-- For a process in which a container was entered, and every run of the app of a container: the app
performs operations on the record, from the completeness check on. None of them fails to unwrap
`user`, and all are about the account that was signed in at the first entry, whoever is signed in
now. They register the observers of the app and make its writes, in order, and the answers are for
the oldest of these. -/
theorem app_in_process {account : Option Uid} {fs : List Flow.Event} {f : Flow}
    (hflow : Machine.run Flow.step (Flow.launch account) fs = some f) (hentered : f.entries ≠ [])
    (hunwrap : f.unwrapFailed = false) {node : Replica Record Pending} {today : Date}
    {es : List Event} {t : App} (hrun : Machine.run step (enter node today) es = some t) :
    ∃ (uid : Uid) (ops : List Operation), f.entries.head? = some (some uid) ∧
      (∀ op ∈ ops, Flow.step f (.operation op) = some f ∧
        f.process.perform op = some (op.accesses uid, f.process)) ∧
      t.observed = ops.filter Operation.observes ∧
      ∃ answered, node.pending.map Pending.write ++ ops.flatMap Operation.writes =
        answered ++ t.written ∧ answered.length = es.countP Event.isAnswer := by
  obtain ⟨uid, hhead, huser⟩ := (Flow.entered_run hflow).exists_uid hentered
  obtain ⟨ops, hops⟩ := performed_run hrun
  have hentry : (enter node today).observed = [.isUserProfileEmpty, .getUserSources] := rfl
  have hne : ∀ op ∈ Operation.isUserProfileEmpty :: .getUserSources :: ops,
      op ≠ .addUserItems := by
    simpa using hops.ne
  refine ⟨uid, .isUserProfileEmpty :: .getUserSources :: ops, hhead, fun op hop => ?_, ?_,
    hops.writes⟩
  · have hperform := Operation.perform_eq huser (hne op hop)
    have hact : f.act (.operation op) = some { f with process := f.process } := by
      simp only [Flow.act, hperform]
      exact if_pos ⟨hentered, hne op hop⟩
    exact ⟨(if_pos hunwrap).trans hact, hperform⟩
  · rw [hops.observers, hentry]
    rfl

/-- Ann has entered first and Bob is signed in, a source is selected, and Done is pressed. -/
theorem app_in_process_reentering : ∃ f t,
    Machine.run Flow.step (Flow.launch none) Flow.reentering = some f ∧
      f.process.currentUser = some (Str.of "bob") ∧
      Machine.run step (enter registered newYear2020) (selecting ++ [Event.sources 0 .done]) =
        some t ∧
      ∃ (uid : Uid) (ops : List Operation), f.entries.head? = some (some uid) ∧
        (∀ op ∈ ops, Flow.step f (.operation op) = some f ∧
          f.process.perform op = some (op.accesses uid, f.process)) ∧
        t.observed = ops.filter Operation.observes ∧
        ∃ answered, registered.pending.map Pending.write ++ ops.flatMap Operation.writes =
            answered ++ t.written ∧
          answered.length = (selecting ++ [Event.sources 0 .done]).countP Event.isAnswer := by
  refine ⟨_, _, rfl, rfl, rfl, ?_⟩
  exact @app_in_process none Flow.reentering _ rfl (List.cons_ne_nil _ _) rfl registered newYear2020
    (selecting ++ [Event.sources 0 .done]) _ rfl

end App
end MyNews
