import MyNews.Lib.Machine
import MyNews.Lib.Replica
import MyNews.ProfileViewController

/-!
# The record of one account and the observer of the container screen

The record starts when the sign-up screen has created the account: `addUserItems` sends the blank
record. When the container screen is entered, `isUserProfileEmpty` registers an observer that stays
for the rest of the process. The screens over the container write single children. The database
applies a write to the client's view at once (`Replica`), answers the writes in order, and sends
the observer the view when it is registered and each time it changes.

* `Phase`: what the record can be while no child is written into an absent record.
* `casts_succeed_iff`: the casts of the observer succeed on all snapshots iff every step is on a
  record (`OnRecord`): a child is written only into a record that exists, and `addUserItems` is not
  rejected with a child write behind it.
-/

namespace MyNews
namespace Account

open OnlineRepository

/-- The record, and what the observer has received. -/
structure State where
  node : Replica Record Write
  /-- `isUserProfileEmpty` has registered its observer. -/
  observing : Bool
  /-- The snapshots that the observer has received, the newest last. -/
  received : List Record
  deriving DecidableEq

namespace State

/-- The record as the client sees it. -/
def view (s : State) : Record := s.node.view Write.apply

/-- A change of the node: the observer receives the view if it changed. -/
def update (s : State) (node : Replica Record Write) : State :=
  { s with
    node
    received :=
      if s.observing ∧ node.view Write.apply ≠ s.view then s.received ++ [node.view Write.apply]
      else s.received }

/-- `createUser` has succeeded and `addUserItems` has sent its write, the only one for the account:
two sign-ups at a time, which could send two, are left out. -/
def registered : State where
  node := ⟨Record.empty, [addUserItems]⟩
  observing := false
  received := []

end State

/-- What happens to the account. -/
inductive Event where
  /-- The database accepts or rejects the oldest write. -/
  | answer (accepted : Bool)
  /-- The container screen is entered: `isUserProfileEmpty`. -/
  | enter
  /-- `saveUserSources`. -/
  | saveUserSources (newSources : List Str)
  /-- One write of `ProfileViewController.handleDismis`. -/
  | profileWrite (form : ProfileViewController.Form) (write : Write)
  deriving DecidableEq

/-- The state after the event; `none` if it cannot happen. The screens that write are over the
container. -/
def step (s : State) : Event → Option State
  | .answer accepted => (s.node.answer Write.apply accepted).map s.update
  | .enter => some { s with observing := true, received := s.received ++ [s.view] }
  | .saveUserSources newSources =>
    if s.observing then some (s.update (s.node.write (SourcesViewModel.saveUserSources newSources)))
    else none
  | .profileWrite form write =>
    if s.observing ∧ write ∈ (ProfileViewController.handleDismis form).getD [] then
      some (s.update (s.node.write write))
    else none

/-- The casts of the observer's closure succeed on each snapshot that it has received. -/
def CastsSucceed (s : State) : Prop :=
  ∀ record ∈ s.received, (∃ r, isUserProfileEmpty record.snapshot = .ok r) ∧ Readable record

/-- The step is on a record: a child write finds one, and the rejection of `addUserItems` leaves no
child write behind. -/
def OnRecord (s : State) : Event → Prop
  | .answer false => s.node.pending.head? = some addUserItems → s.node.pending = [addUserItems]
  | .saveUserSources _ => s.view ≠ Record.empty
  | .profileWrite _ _ => s.view ≠ Record.empty
  | _ => True

/-! ## Child writes -/

/-- A write of a screen: of one child, and not of the country or the city. -/
inductive ChildWrite : Write → Prop
  | mk (field : Field) (value : Str) (hcountry : field ≠ .userCountry) (hcity : field ≠ .userCity) :
    ChildWrite (.child field value)

theorem childWrite_saveUserSources (l : List Str) :
    ChildWrite (SourcesViewModel.saveUserSources l) :=
  ⟨_, _, by decide, by decide⟩

theorem childWrite_of_mem_handleDismis {form : ProfileViewController.Form} {w : Write}
    (h : w ∈ (ProfileViewController.handleDismis form).getD []) : ChildWrite w := by
  cases hw : ProfileViewController.handleDismis form with
  | none => rw [hw] at h; cases h
  | some writes =>
    obtain ⟨-, rfl⟩ := ProfileViewController.handleDismis_eq_some hw
    rw [hw, Option.getD_some] at h
    simp only [List.mem_cons, List.not_mem_nil, or_false] at h
    rcases h with rfl | rfl | rfl | rfl | rfl <;> exact ⟨_, _, by decide, by decide⟩

/-- All six children of the completeness test are strings. -/
def Complete (record : Record) : Prop :=
  ∀ field ∈ profileFields, ∃ s, record field = some (.string s)

theorem complete_postInfo : Complete postInfo := by
  simp [Complete, profileFields, postInfo]

theorem Complete.ne_empty {record : Record} (h : Complete record) : record ≠ Record.empty := by
  rintro rfl
  obtain ⟨s, hs⟩ := h .userName (by simp [profileFields])
  cases hs

theorem Complete.apply {record : Record} (h : Complete record) {w : Write} (hw : ChildWrite w) :
    Complete (w.apply record) := by
  obtain ⟨field, value, -, -⟩ := hw
  intro f hf
  by_cases he : f = field
  · subst he; exact ⟨value, Write.apply_child_self _ _ _⟩
  · rw [Write.apply_child_of_ne he]; exact h f hf

/-- Child writes on a complete record leave it complete. -/
theorem complete_view {record : Record} {ws : List Write} (h : Complete record)
    (hw : ∀ w ∈ ws, ChildWrite w) : Complete (Replica.view Write.apply ⟨record, ws⟩) :=
  Replica.view_of_keeps h fun w hm _ hv => hv.apply (hw w hm)

/-- Child writes on an absent record make one that the observer cannot read: it has no country. -/
theorem not_readable_view {ws : List Write} (hne : ws ≠ []) (hw : ∀ w ∈ ws, ChildWrite w) :
    ¬ Readable (Replica.view Write.apply ⟨Record.empty, ws⟩) ∧
      Replica.view Write.apply ⟨Record.empty, ws⟩ .userCountry = none := by
  have hcountry : Replica.view Write.apply ⟨Record.empty, ws⟩ .userCountry = none := by
    refine Replica.view_of_keeps (P := fun r : Record => r .userCountry = none) rfl ?_
    intro w hm r hr
    obtain ⟨field, value, hf, -⟩ := hw w hm
    rw [Write.apply_child_of_ne (Ne.symm hf)]
    exact hr
  have hempty : Replica.view Write.apply ⟨Record.empty, ws⟩ ≠ Record.empty := by
    cases ws with
    | nil => exact (hne rfl).elim
    | cons w ws =>
      obtain ⟨hw, hws⟩ := List.forall_mem_cons.mp hw
      have keep : ∀ w, ChildWrite w → ∀ r : Record, w.apply r ≠ Record.empty := by
        rintro _ ⟨field, value, -, -⟩ r h0
        have h1 := Write.apply_child_self field value r
        rw [h0] at h1
        cases h1
      rw [Replica.view_cons]
      exact Replica.view_of_keeps (P := (· ≠ Record.empty)) (keep w hw _)
        fun w' hm r _ => keep w' (hws w' hm) r
  refine ⟨?_, hcountry⟩
  rintro (h | h)
  · exact hempty h
  · obtain ⟨s, hs⟩ := h .userCountry (by simp [profileFields])
    rw [hcountry] at hs
    cases hs

/-! ## What a step does -/

/-- What a step does, and what `OnRecord` says about it. -/
inductive StepTo (s : State) : Event → State → Prop
  | answer (b : Bool) (node : Replica Record Write) (h : s.node.answer Write.apply b = some node) :
    StepTo s (.answer b) (s.update node)
  | enter : StepTo s .enter { s with observing := true, received := s.received ++ [s.view] }
  | write (e : Event) (w : Write) (hw : ChildWrite w) (hobs : s.observing = true)
    (hon : OnRecord s e ↔ s.view ≠ Record.empty) : StepTo s e (s.update (s.node.write w))

theorem step_to {s t : State} {e : Event} (h : step s e = some t) : StepTo s e t := by
  cases e with
  | answer b =>
    obtain ⟨node, ha, rfl⟩ := Option.map_eq_some_iff.mp h
    exact .answer b node ha
  | enter => cases h; exact .enter
  | saveUserSources l =>
    simp only [step] at h
    split at h
    · rename_i hobs
      cases h
      exact .write _ _ (childWrite_saveUserSources l) hobs Iff.rfl
    · cases h
  | profileWrite form w =>
    simp only [step] at h
    split at h
    · rename_i hobs
      cases h
      exact .write _ _ (childWrite_of_mem_handleDismis hobs.2) hobs.1 Iff.rfl
    · cases h

/-! ## The phases of the record -/

/-- What the record can be after steps that are all on a record: `addUserItems` is not answered
yet, or it was accepted, or it was rejected and nothing has been written since. -/
inductive Phase : State → Prop
  | unanswered {s : State} (ws : List Write)
      (node : s.node = ⟨Record.empty, addUserItems :: ws⟩) (child : ∀ w ∈ ws, ChildWrite w)
      (entered : ws ≠ [] → s.observing = true) : Phase s
  | created {s : State} (record : Record) (ws : List Write) (node : s.node = ⟨record, ws⟩)
      (complete : Complete record) (child : ∀ w ∈ ws, ChildWrite w) : Phase s
  | missing {s : State} (node : s.node = ⟨Record.empty, []⟩) : Phase s

/-- In every phase the observer can read the record; only in the last one it is absent. -/
theorem Phase.view {s : State} (h : Phase s) :
    Complete s.view ∨ s.node = ⟨Record.empty, []⟩ := by
  cases h with
  | unanswered ws node child _ =>
    left
    rw [State.view, node, Replica.view_cons]
    exact complete_view complete_postInfo child
  | created record ws node complete child =>
    left
    rw [State.view, node]
    exact complete_view complete child
  | missing node => exact .inr node

theorem Phase.readable {s : State} (h : Phase s) : Readable s.view := by
  rcases h.view with hc | hm
  · exact .inr hc
  · left; rw [State.view, hm]; rfl

/-- A child write on a record keeps the phase. -/
theorem Phase.write {s : State} (h : Phase s) {w : Write} (hw : ChildWrite w)
    (hobs : s.observing = true) (hv : s.view ≠ Record.empty) :
    Phase (s.update (s.node.write w)) := by
  have hcons : ∀ ws : List Write, (∀ w ∈ ws, ChildWrite w) → ∀ w' ∈ ws ++ [w], ChildWrite w' := by
    intro ws hws w' hm
    rcases List.mem_append.mp hm with hm | hm
    · exact hws w' hm
    · rw [List.mem_singleton.mp hm]; exact hw
  cases h with
  | unanswered ws node child _ =>
    exact .unanswered (ws ++ [w]) (by simp [State.update, Replica.write, node]) (hcons ws child)
      fun _ => hobs
  | created record ws node complete child =>
    exact .created record (ws ++ [w]) (by simp [State.update, Replica.write, node]) complete
      (hcons ws child)
  | missing node => exact (hv (by rw [State.view, node]; rfl)).elim

/-- An answer keeps the phase, unless it rejects `addUserItems` with writes behind it. -/
theorem Phase.answer {s : State} (h : Phase s) {b : Bool} {node : Replica Record Write}
    (ha : s.node.answer Write.apply b = some node) (hon : OnRecord s (.answer b)) :
    Phase (s.update node) := by
  obtain ⟨w, ws, hp, rfl⟩ := Replica.answer_eq_some.mp ha
  cases h with
  | unanswered ws' node child entered =>
    rw [node] at hp
    cases hp
    cases b with
    | true =>
      exact .created postInfo ws (by simp [State.update, addUserItems]) complete_postInfo child
    | false =>
      have hnil : ws = [] := by simpa [node] using hon (by rw [node]; rfl)
      exact .missing (by simp [State.update, node, hnil])
  | created record ws' node complete child =>
    rw [node] at hp
    subst hp
    obtain ⟨hw, hws⟩ := List.forall_mem_cons.mp child
    refine .created (if b then w.apply record else record) ws ?_ ?_ hws
    · simp [State.update, node]
    · split
      · exact complete.apply hw
      · exact complete
  | missing node => rw [node] at hp; cases hp

/-! ## What the observer receives -/

theorem received_update (s : State) (node : Replica Record Write) :
    ∀ record ∈ s.received, record ∈ (s.update node).received := by
  intro record h
  simp only [State.update]
  split
  · exact List.mem_append_left _ h
  · exact h

theorem received_of_step {s t : State} {e : Event} (h : step s e = some t) :
    ∀ record ∈ s.received, record ∈ t.received := by
  cases step_to h with
  | answer _ node _ => exact received_update s node
  | enter => exact fun record hr => List.mem_append_left _ hr
  | write _ w _ _ _ => exact received_update s _

/-- Snapshots that were readable before the step are readable after it. -/
theorem CastsSucceed.of_step {s t : State} {e : Event} (h : step s e = some t)
    (ht : CastsSucceed t) : CastsSucceed s :=
  fun record hr => ht record (received_of_step h record hr)

theorem CastsSucceed.append {s : State} (h : CastsSucceed s) {record : Record}
    (hr : Readable record) {t : State} (ht : t.received = s.received ++ [record]) :
    CastsSucceed t := by
  intro r hm
  rw [ht] at hm
  rcases List.mem_append.mp hm with hm | hm
  · exact h r hm
  · rw [List.mem_singleton.mp hm]
    exact ⟨isUserProfileEmpty_ok_iff.mpr (by rw [Record.dick_snapshot]; exact hr), hr⟩

/-- A change to a node in a phase sends the observer a readable snapshot, or none. -/
theorem CastsSucceed.update {s : State} {node : Replica Record Write} (h : CastsSucceed s)
    (hphase : Phase (s.update node)) : CastsSucceed (s.update node) := by
  by_cases hc : s.observing ∧ node.view Write.apply ≠ s.view
  · have hr : Readable (node.view Write.apply) := hphase.readable
    exact h.append hr (by simp [State.update, hc])
  · intro record hm
    exact h record (by simpa [State.update, hc] using hm)

/-- The view is received when it changes. -/
theorem mem_received_update {s : State} {node : Replica Record Write} (hobs : s.observing = true)
    (hv : node.view Write.apply ≠ s.view) :
    node.view Write.apply ∈ (s.update node).received := by
  simp [State.update, hobs, hv]

/-! ## Runs -/

/-- A step on a record keeps the phase and the casts. -/
theorem Phase.next {s t : State} {e : Event} (h : Phase s) (hc : CastsSucceed s)
    (hon : OnRecord s e) (hs : step s e = some t) : Phase t ∧ CastsSucceed t := by
  cases step_to hs with
  | answer b node ha =>
    have ht := h.answer ha hon
    exact ⟨ht, hc.update ht⟩
  | enter =>
    refine ⟨?_, hc.append h.readable rfl⟩
    cases h with
    | unanswered ws node child _ => exact .unanswered ws node child fun _ => rfl
    | created record ws node complete child => exact .created record ws node complete child
    | missing node => exact .missing node
  | write _ w hw hobs hiff =>
    have ht := h.write hw hobs (hiff.mp hon)
    exact ⟨ht, hc.update ht⟩

/-- A child write into an absent record reaches the observer as a snapshot that it cannot read. -/
theorem Phase.view_ne_empty_of_write {s : State} (h : Phase s) {w : Write} (hw : ChildWrite w)
    (hobs : s.observing = true) (ht : CastsSucceed (s.update (s.node.write w))) :
    s.view ≠ Record.empty := by
  intro h0
  rcases h.view with hc | hm
  · exact hc.ne_empty h0
  · have hn := (@not_readable_view [w] (by simp) (by simpa using hw)).1
    have hv : (s.node.write w).view Write.apply = Replica.view Write.apply ⟨Record.empty, [w]⟩ := by
      rw [hm]; rfl
    have hne : (s.node.write w).view Write.apply ≠ s.view := by
      rw [hv, h0]
      exact fun he => hn (.inl he)
    refine hn ?_
    rw [← hv]
    exact (ht _ (mem_received_update hobs hne)).2

/-- So does the rejection of `addUserItems` with child writes behind it. -/
theorem Phase.pending_eq_of_reject {s : State} (h : Phase s) {node : Replica Record Write}
    (ha : s.node.answer Write.apply false = some node) (ht : CastsSucceed (s.update node)) :
    OnRecord s (.answer false) := by
  intro hhead
  cases h with
  | unanswered ws hnode child entered =>
    by_contra hne
    have hws : ws ≠ [] := fun h0 => hne (by rw [hnode, h0])
    obtain ⟨hn, hcountry⟩ := not_readable_view hws child
    have hv : node.view Write.apply = Replica.view Write.apply ⟨Record.empty, ws⟩ := by
      rw [Replica.view_reject (by rw [hnode]) ha, hnode]
    have hold : Complete s.view := by
      rw [State.view, hnode, Replica.view_cons]
      exact complete_view complete_postInfo child
    have hchange : node.view Write.apply ≠ s.view := by
      intro he
      obtain ⟨x, hx⟩ := hold .userCountry (by simp [profileFields])
      rw [← he, hv, hcountry] at hx
      cases hx
    refine hn ?_
    rw [← hv]
    exact (ht _ (mem_received_update (entered hws) hchange)).2
  | created record ws hnode complete child =>
    rw [hnode] at hhead
    have hw := child addUserItems (List.mem_of_mem_head? hhead)
    cases hw
  | missing hnode => rw [hnode] at hhead; cases hhead

/-- Only steps on a record leave the observer without a snapshot that it cannot read. -/
theorem Phase.onRecord {s t : State} {e : Event} (h : Phase s) (hs : step s e = some t)
    (ht : CastsSucceed t) : OnRecord s e := by
  cases step_to hs with
  | answer b node ha =>
    cases b with
    | true => trivial
    | false => exact h.pending_eq_of_reject ha ht
  | enter => trivial
  | write _ w hw hobs hiff => exact hiff.mpr (h.view_ne_empty_of_write hw hobs ht)

theorem phase_registered : Phase State.registered := .unanswered [] rfl (by simp) (by simp)

/-- For every history of an account after `createUser`: the casts of the observer succeed on each
snapshot that it receives iff every step is on a record. -/
theorem casts_succeed_iff {es : List Event} {t : State}
    (hrun : Machine.run step State.registered es = some t) :
    CastsSucceed t ↔ ∀ x ∈ Machine.steps step State.registered es, OnRecord x.1 x.2 := by
  have key := Machine.run_good_or_bad (G := fun t => Phase t ∧ CastsSucceed t)
    (B := fun t => ¬ CastsSucceed t) (Q := OnRecord)
    ⟨phase_registered, fun _ h => by cases h⟩
    (fun m e t hs h hon => h.1.next h.2 hon hs)
    (fun m e t hs h hon ht => hon (h.1.onRecord hs ht))
    (fun m e t hs h ht => h (ht.of_step hs)) hrun
  constructor
  · intro hc
    by_contra hn
    exact key.2 hn hc
  · exact fun h => (key.1 h).2

/-- The usual history: the record is created, the container is entered, sources are saved. -/
theorem casts_succeed_created :
    CastsSucceed (((Machine.run step State.registered
      [.answer true, .enter, .saveUserSources []])).getD State.registered) ↔
      ∀ x ∈ Machine.steps step State.registered [.answer true, .enter, .saveUserSources []],
        OnRecord x.1 x.2 :=
  casts_succeed_iff rfl

/-- `addUserItems` was rejected; the user signs in to the account and saves the sources. -/
theorem not_casts_succeed_missing_record :
    ∃ t, Machine.run step State.registered [.answer false, .enter, .saveUserSources []] = some t ∧
      ¬ CastsSucceed t := by
  refine ⟨_, rfl, fun h => ?_⟩
  have hr := (h ((SourcesViewModel.saveUserSources []).apply Record.empty) (by decide)).2
  exact (@not_readable_view [SourcesViewModel.saveUserSources []] (by simp)
    (by simpa using childWrite_saveUserSources [])).1 hr

end Account
end MyNews
