import MyNews.App.Record

/-!
# The profile form after a save

A save performs the segue back, and until its animation ends a segue of the completeness check
presents nothing.

* `IdleTo`, `idle_step`: what a step without the user does to the form and to the snapshots on the
  way to the check.
* `presented_until_dismissed`: until then the form stays presented.
* `form_returns_iff`: for a registered account the form is presented again after a save iff the
  check receives a snapshot after the end of the segue back: one that was on the way then, or one of
  a change after it.
-/

namespace MyNews
namespace App

open OnlineRepository ProfileViewController

/-- The user does nothing: deliveries, answers, and other devices. -/
def Event.idle : Event → Bool
  | today _ | deliver _ | answer _ | remote _ | response _ _ => true
  | sources _ (.allSources _) => true
  | _ => false

/-! ## The snapshots on the way -/

/-- A snapshot is on the way to the check. -/
def Waiting (bus : Bus Observer DataSnapshot) : Prop := ∃ v q, bus.queues .check = [v :: q]

theorem waiting_register {bus : Bus Observer DataSnapshot} {o : Observer} (ho : o ≠ .check)
    (value : DataSnapshot) : Waiting (bus.register o value) ↔ Waiting bus := by
  rw [Waiting, Waiting, Bus.queues_register_of_ne ho]

theorem waiting_deliver {bus bus' : Bus Observer DataSnapshot} {i : Nat} {o : Observer}
    {value : DataSnapshot} (hd : bus.deliver i = some (o, value, bus')) (ho : o ≠ .check) :
    Waiting bus' ↔ Waiting bus := by
  rw [Waiting, Waiting, Bus.queues_deliver_of_ne hd ho]

theorem CheckedOnce.waiting_send {bus : Bus Observer DataSnapshot} (h : CheckedOnce bus)
    (value : DataSnapshot) : Waiting (bus.send value) := by
  obtain ⟨q, hq⟩ := h
  cases q with
  | nil => exact ⟨value, [], by rw [Bus.queues_send, hq]; rfl⟩
  | cons v q => exact ⟨v, q ++ [value], by rw [Bus.queues_send, hq]; rfl⟩

/-- A snapshot is sent iff the view changes. -/
theorem waiting_update {a : App} (h : CheckedOnce a.bus) (node : Replica Record Pending) :
    Waiting (a.update node).bus ↔ Waiting a.bus ∨ (a.update node).view ≠ a.view := by
  have hview : (a.update node).view = node.view Pending.apply := rfl
  rw [hview]
  simp only [App.update]
  split
  · rename_i hv; simp [hv]
  · rename_i hv; exact iff_of_true (h.waiting_send _) (.inr hv)

/-! ## A step without the user -/

/-- What a step does to the form and to the snapshots on the way to the check. -/
inductive IdleTo (a a' : App) : Prop
  /-- The check receives a snapshot and performs its segue. -/
  | asked (hwaiting : Waiting a.bus) (hview : a'.view = a.view)
    (hpresented : a'.presented = a.presented.or (some .profile))
    (hprofiles : a'.profiles.length = a.profiles.length + if a.presented = none then 1 else 0)
  | other (hpresented : a'.presented = a.presented)
    (hprofiles : a'.profiles.length = a.profiles.length)
    (hwaiting : Waiting a'.bus ↔ Waiting a.bus ∨ a'.view ≠ a.view)

theorem IdleTo.frame {a a' : App} (hnode : a'.node = a.node)
    (hpresented : a'.presented = a.presented) (hprofiles : a'.profiles.length = a.profiles.length)
    (hwaiting : Waiting a'.bus ↔ Waiting a.bus) : IdleTo a a' := by
  refine .other hpresented hprofiles ?_
  rw [hwaiting, App.view, App.view, hnode]
  simp

theorem present_profile (a : App) :
    (a.present .profile).presented = a.presented.or (some .profile) ∧
      (a.present .profile).profiles.length =
        a.profiles.length + (if a.presented = none then 1 else 0) ∧
      (a.present .profile).node = a.node ∧ (a.present .profile).closing = a.closing := by
  unfold App.present
  cases hp : a.presented with
  | none => simp [load, App.observe]
  | some screen => simp [hp]

/-- A delivery: the check performs its segue, and the other observers leave the form open. -/
theorem idle_receive {a : App} (hs : Seen AppWrite Registered a) {i : Nat} {o : Observer}
    {value : DataSnapshot} {bus : Bus Observer DataSnapshot} (hc : CheckedOnce a.bus)
    (hd : a.bus.deliver i = some (o, value, bus)) :
    (({ a with bus } : App).receive o value).closing = a.closing ∧
      IdleTo a (({ a with bus } : App).receive o value) := by
  by_cases ho : o = .check
  · subst ho
    rw [App.receive, block_registered _ (hs.sent value (Bus.sent_of_deliver hd).1),
      userProfileIsEmpty]
    obtain ⟨hpresented, hprofiles, hnode, hclosing⟩ := present_profile { a with
      bus, received := a.received ++ [value], profileSegues := a.profileSegues ++ [a.presented] }
    obtain ⟨q, hq, -⟩ := queues_check_deliver hc hd
    exact ⟨hclosing, .asked ⟨value, q, hq⟩ (congrArg (Replica.view Pending.apply) hnode) hpresented
      hprofiles⟩
  · have hbus := waiting_deliver hd ho
    cases o with
    | check => exact (ho rfl).elim
    | profile screen => exact ⟨rfl, .frame rfl rfl (List.length_modify _ _ _) hbus⟩
    | _ => exact ⟨rfl, .frame rfl rfl rfl hbus⟩

/-- The answer to a save of a Sources screen that is closed. -/
theorem saveAnswered_of_closed {a : App} (h : Screens a) (hopen : ¬ a.Touchable .sources)
    (screen : Nat) (accepted : Bool) :
    ∃ sources, a.saveAnswered screen accepted = { a with sources } := by
  unfold saveAnswered
  split
  · exact ⟨a.sources, rfl⟩
  · rename_i c hc
    have hleft : c.shown = .left := by
      by_contra hne
      exact hopen ((h.sources.iff_last screen c hc).mp hne).1
    split
    · exact ⟨a.sources, rfl⟩
    · exact ⟨_, if_neg (by simp [hleft])⟩

theorem idle_step {a a' : App} {e : Event} (h : step a e = some a') (hidle : e.idle = true)
    (hs : Seen AppWrite Registered a) (hsound : Sound a) (hopen : ¬ a.Touchable .sources) :
    a'.closing = a.closing ∧ IdleTo a a' := by
  cases (step_to h).2 with
  | today date => exact ⟨rfl, .frame rfl rfl rfl Iff.rfl⟩
  | receive i o value bus hd => exact idle_receive hs hsound.checked hd
  | answer accepted node write hp hn =>
    exact ⟨rfl, .other rfl rfl (waiting_update hsound.checked _)⟩
  | saveAnswered accepted node write screen hp hn =>
    obtain ⟨sources, hanswered⟩ := saveAnswered_of_closed
      (hsound.screens.congr (a.update node) rfl rfl rfl rfl) hopen screen accepted
    rw [hanswered]
    exact ⟨rfl, .other rfl rfl (waiting_update hsound.checked _)⟩
  | remote w => exact ⟨rfl, .other rfl rfl (waiting_update hsound.checked _)⟩
  | response request response c hs => exact ⟨rfl, .frame rfl rfl rfl Iff.rfl⟩
  | sources screen e c c' he hc hs =>
    cases e with
    | allSources response =>
      simp only [sourcesAction]
      split
      · exact ⟨rfl, .frame rfl rfl rfl (waiting_register (by simp) _)⟩
      · exact ⟨rfl, .frame rfl rfl rfl Iff.rfl⟩
    | _ => cases hidle
  | _ => cases hidle

/-- What the steps without the user keep, as long as no Sources screen is open. -/
theorem idle_run {node : Replica Record Pending} (h : Starts AppWrite Registered node)
    {today : Date} {pre es : List Event} {s t : App} {I : List Event → App → Prop}
    (hpre : Machine.run step (enter node today) pre = some s)
    (hremote : ∀ e ∈ pre ++ es, RemoteIn AppWrite e) (hidle : ∀ e ∈ es, e.idle = true)
    (hI : I [] s) (hopen : ∀ fs m, I fs m → ¬ m.Touchable .sources)
    (hstep : ∀ fs e m m', Machine.run step s fs = some m → step m e = some m' → I fs m →
      m'.closing = m.closing → IdleTo m m' → I (fs ++ [e]) m')
    (hrun : Machine.run step s es = some t) : I es t := by
  obtain ⟨hfpre, hfes⟩ := List.forall_mem_append.mp hremote
  refine Machine.run_history (I := fun fs a => (∀ e ∈ fs, e ∈ es) → I fs a) (fun _ => hI) ?_ hrun
    fun _ he => he
  intro fs e m m' hfs ih hm hsub
  obtain ⟨hfs', he⟩ := List.forall_mem_append.mp hsub
  have hI' := ih hfs'
  obtain ⟨hseen, hsound⟩ := seen_run kept_registered .screen h
    (Machine.run_append_eq_some.mpr ⟨s, hpre, hfs⟩)
    (List.forall_mem_append.mpr ⟨fun e he => (hfpre e he).keeps kept_registered,
      fun e he => (hfes e (hfs' e he)).keeps kept_registered⟩)
  obtain ⟨hclosing, hto⟩ := idle_step hm (hidle e (he e (by simp))) hseen hsound (hopen fs m hI')
  exact hstep fs e m m' hfs hm hI' hclosing hto

/-! ## The form after a save -/

/-- The event changes the record as the client sees it. -/
def Changes (a : App) (e : Event) : Prop := ∃ a', step a e = some a' ∧ a'.view ≠ a.view

/-- A snapshot is on the way to the check, or the record changes in the run. -/
def Returns (s : App) (es : List Event) : Prop :=
  Waiting s.bus ∨ Machine.Happened step Changes s es

/-- After the end of the segue back, with `n` forms so far: a snapshot that is on the way to the
check or reaches it opens another one. -/
def Returning (n : Nat) (s : App) (es : List Event) (a : App) : Prop :=
  a.closing = false ∧
    ((a.presented = none ∧ a.profiles.length = n ∧ (Returns s es ↔ Waiting a.bus)) ∨
      (a.presented = some .profile ∧ a.profiles.length = n + 1 ∧ Returns s es))

theorem Returning.step {n : Nat} {s m m' : App} {es : List Event} {e : Event}
    (hes : Machine.run App.step s es = some m) (hm : App.step m e = some m')
    (h : Returning n s es m) (hclosing : m'.closing = m.closing) (hto : IdleTo m m') :
    Returning n s (es ++ [e]) m' := by
  have hreturns : Returns s (es ++ [e]) ↔ Returns s es ∨ m'.view ≠ m.view := by
    rw [Returns, Returns, Machine.happened_concat hes, or_assoc]
    simp [Changes, hm]
  obtain ⟨hc, hcase⟩ := h
  refine ⟨hclosing.trans hc, ?_⟩
  rcases hcase with ⟨hp, hn, hw⟩ | ⟨hp, hn, hr⟩
  · cases hto with
    | asked hwaiting hview hpresented hprofiles =>
      refine .inr ⟨by rw [hpresented, hp]; rfl, by rw [hprofiles, hp, hn]; rfl, ?_⟩
      exact hreturns.mpr (.inl (hw.mpr hwaiting))
    | other hpresented hprofiles hwaiting =>
      exact .inl ⟨hpresented.trans hp, hprofiles.trans hn, by rw [hreturns, hw, hwaiting]⟩
  · refine .inr ?_
    cases hto with
    | asked hwaiting hview hpresented hprofiles =>
      exact ⟨by rw [hpresented, hp]; rfl, by rw [hprofiles, hp, hn]; rfl, hreturns.mpr (.inl hr)⟩
    | other hpresented hprofiles hwaiting =>
      exact ⟨hpresented.trans hp, hprofiles.trans hn, hreturns.mpr (.inl hr)⟩

/-- A save leaves the form presented, whether or not it closes it. -/
theorem presented_save {a a' : App} (h : Screens a) {k : Nat}
    (hs : step a (.profile k .save) = some a') :
    a'.presented = some .profile ∧ a'.profiles.length = a.profiles.length := by
  cases (step_to hs).2 with
  | profile _ _ c c' hc hs' hopen hopen' =>
    exact ⟨((h.profiles.iff_last k c hc).mp hopen).1.1, List.length_set⟩
  | save _ c writes hc hopen hw =>
    obtain ⟨node, bus, hframe⟩ := setValues_frame a writes
    rw [hframe]
    exact ⟨((h.profiles.iff_last k c hc).mp hopen).1.1, List.length_set⟩

/-- Until the end of the segue back the form stays presented. -/
theorem presented_until_dismissed {node : Replica Record Pending}
    (h : Starts AppWrite Registered node) {today : Date} {pre mid : List Event} {s s' m : App}
    {k : Nat} (hpre : Machine.run step (enter node today) pre = some s)
    (hsave : step s (.profile k .save) = some s') (hmid : Machine.run step s' mid = some m)
    (hremote : ∀ e ∈ pre ++ [.profile k .save] ++ mid, RemoteIn AppWrite e)
    (hidle : ∀ e ∈ mid, e.idle = true) :
    m.presented = some .profile ∧ m.profiles.length = s.profiles.length := by
  refine idle_run h (I := fun _ a => a.presented = some .profile ∧
    a.profiles.length = s.profiles.length) (Machine.run_concat_eq_some.mpr ⟨s, hpre, hsave⟩) hremote
    hidle (presented_save (refines_run hpre).2.screens hsave) ?_ ?_ hmid
  · rintro - a ⟨hp, -⟩ ⟨hp'', -⟩
    rw [hp] at hp''
    cases hp''
  · rintro - e a a' - - ⟨hp, hn⟩ - hto
    cases hto with
    | asked _ _ hpresented hprofiles =>
      exact ⟨by rw [hpresented, hp]; rfl, by rw [hprofiles, hp, hn]; rfl⟩
    | other hpresented hprofiles _ => exact ⟨hpresented.trans hp, hprofiles.trans hn⟩

/-- For every run of the app for a registered account whose other devices write only what the app
writes: if the user does nothing after a save of the profile form, the form is still presented when
the segue back ends, and no other has been opened. If then everything is delivered to the check, the
form is presented again, as a new one, iff at that end a snapshot was on the way to the check or the
record has changed since; else no screen is presented. -/
theorem form_returns_iff {node : Replica Record Pending} (h : Starts AppWrite Registered node)
    {today : Date} {pre mid post : List Event} {s s' m m' t : App} {k : Nat}
    (hpre : Machine.run step (enter node today) pre = some s)
    (hsave : step s (.profile k .save) = some s') (hmid : Machine.run step s' mid = some m)
    (hend : step m .dismissed = some m') (hpost : Machine.run step m' post = some t)
    (hremote : ∀ e ∈ pre ++ mid ++ post, RemoteIn AppWrite e)
    (hidle : ∀ e ∈ mid ++ post, e.idle = true) (hreceived : ∀ q ∈ t.bus.queues .check, q = []) :
    (m.presented = some .profile ∧ m.profiles.length = s.profiles.length) ∧
      (Returns m' post → t.presented = some .profile ∧ t.profiles.length = s.profiles.length + 1) ∧
      (¬ Returns m' post → t.presented = none ∧ t.profiles.length = s.profiles.length) := by
  obtain ⟨hfmid, hfpost⟩ := List.forall_mem_append.mp hremote
  obtain ⟨hfpre, hfmid'⟩ := List.forall_mem_append.mp hfmid
  obtain ⟨hidmid, hidpost⟩ := List.forall_mem_append.mp hidle
  have hfsave : RemoteIn AppWrite (.profile k .save) := by simp [RemoteIn]
  have hfend : RemoteIn AppWrite .dismissed := by simp [RemoteIn]
  have hclosing := presented_until_dismissed h hpre hsave hmid (by grind) hidmid
  -- After the end of the segue back a snapshot for the check opens another form.
  have hm' : Machine.run step (enter node today)
      (pre ++ [.profile k .save] ++ mid ++ [.dismissed]) = some m' :=
    Machine.run_concat_eq_some.mpr ⟨m, Machine.run_append_eq_some.mpr
      ⟨s', Machine.run_concat_eq_some.mpr ⟨s, hpre, hsave⟩, hmid⟩, hend⟩
  have hstart : Returning s.profiles.length m' [] m' := by
    have hnone : ¬ Machine.Happened step Changes m' [] := Machine.not_happened_nil
    cases (step_to hend).2 with
    | dismissed hc =>
      exact ⟨rfl, .inl ⟨rfl, hclosing.2, by rw [Returns, or_iff_left hnone]⟩⟩
  have hend' : Returning s.profiles.length m' post t := by
    refine idle_run h hm' (by grind) hidpost hstart ?_ (fun fs e a a' => Returning.step) hpost
    rintro fs a ⟨-, ⟨hp, -⟩ | ⟨hp, -⟩⟩ ⟨hp'', -⟩ <;> rw [hp] at hp'' <;> cases hp''
  refine ⟨hclosing, ?_⟩
  obtain ⟨-, ⟨hp, hn, hw⟩ | ⟨hp, hn, hr⟩⟩ := hend'
  · have hno : ¬ Returns m' post := by
      rw [hw]
      rintro ⟨v, q, hq⟩
      exact absurd (hreceived (v :: q) (by simp [hq])) (by simp)
    exact ⟨fun hr => (hno hr).elim, fun _ => ⟨hp, hn⟩⟩
  · exact ⟨fun _ => ⟨hp, hn⟩, fun hno => (hno hr).elim⟩

/-- The check receives the changes of the save while the form is being closed; after that the server
rejects the name. -/
theorem form_returns_iff_filling : ∃ s s' m m' t,
    Machine.run step (enter registered newYear2020) filling = some s ∧
      step s (.profile 0 .save) = some s' ∧
      Machine.run step s' [.deliver 0, .deliver 0, .deliver 0, .deliver 0] = some m ∧
      step m .dismissed = some m' ∧
      Machine.run step m' [.answer false, .deliver 0] = some t ∧
      (m.presented = some .profile ∧ m.profiles.length = s.profiles.length) ∧
      (Returns m' [.answer false, .deliver 0] →
        t.presented = some .profile ∧ t.profiles.length = s.profiles.length + 1) ∧
      (¬ Returns m' [.answer false, .deliver 0] →
        t.presented = none ∧ t.profiles.length = s.profiles.length) := by
  refine ⟨_, _, _, _, _, rfl, rfl, rfl, rfl, rfl, ?_⟩
  exact @form_returns_iff registered ⟨registered_postInfo, by simp [registered]⟩ newYear2020 filling
    [.deliver 0, .deliver 0, .deliver 0, .deliver 0] [.answer false, .deliver 0] _ _ _ _ _ 0 rfl rfl
    rfl rfl rfl (by simp [RemoteIn, filling]) (by decide) (by decide)

end App
end MyNews
