import MyNews.Session

/-!
# `ProfileViewController`: the password

Change asks the auth service for a new password of the account that is signed in at the tap. A tap
with an empty new password does nothing, and neither does one while nobody is signed in if the two
texts are equal. Nothing disables the button while a call is in flight, and the account can change
in between.

A form that has left the screen stays alive, since its closures hold it.

* `StepTo`, `step_to`: what a step can do.
* `asked_perm`: each call is answered once or under way.
* `inFlight_step`: an attempt has an outcome, or its call is under way.
* `password_typed_twice`: a password is the initial one or was typed twice, while its account was
  signed in; each attempt has one outcome; and the fields are red iff the last outcome is a failure.
-/

namespace MyNews

open Session

/-- The password fields of a profile form. -/
structure PasswordFields where
  newPassword : Str
  confirmPassword : Str
  /-- The borders are red. -/
  marked : Bool

namespace PasswordFields

/-- `configureErrorPasswordTextFields`. -/
def configureErrorPasswordTextFields (_ : PasswordFields) : PasswordFields :=
  { newPassword := [], confirmPassword := [], marked := true }

/-- The closure `viewModel.succesChangePassword`. -/
def succesChangePassword (_ : PasswordFields) : PasswordFields :=
  { newPassword := [], confirmPassword := [], marked := false }

end PasswordFields

/-- A call of `updatePassword`. -/
structure PasswordUpdate where
  form : Nat
  uid : Uid
  newPassword : Str
  deriving DecidableEq

/-- An answer to a call of `updatePassword`. -/
structure PasswordAnswer where
  form : Nat
  isUpdated : Bool
  deriving DecidableEq

/-- The profile forms of a process, in the order in which they load, and the auth service. -/
structure Passwords where
  currentUser : Option Uid
  password : Uid → Str
  fields : Nat → PasswordFields
  /-- The calls of `updatePassword` that are not answered. -/
  updating : List PasswordUpdate
  /-- The answers whose completions have not run. -/
  updated : List PasswordAnswer

namespace Passwords

def start (currentUser : Option Uid) (password : Uid → Str) : Passwords where
  currentUser
  password
  fields := fun _ => { newPassword := [], confirmPassword := [], marked := false }
  updating := []
  updated := []

/-- The fields of the form change. -/
def modify (p : Passwords) (form : Nat) (f : PasswordFields → PasswordFields) : Passwords :=
  { p with fields := Function.update p.fields form (f (p.fields form)) }

/-- `changePassword` of the view model of the form. -/
def changePassword (p : Passwords) (form : Nat) (newPassword confirmPassword : Str) : Passwords :=
  if newPassword ≠ confirmPassword then p.modify form .configureErrorPasswordTextFields
  else
    match p.currentUser with
    | some uid => { p with updating := p.updating ++ [⟨form, uid, newPassword⟩] }
    | none => p

/-- `changePasswordButton`. -/
def changePasswordButton (p : Passwords) (form : Nat) : Passwords :=
  if (p.fields form).newPassword.isEmpty then p
  else p.changePassword form (p.fields form).newPassword (p.fields form).confirmPassword

inductive Event where
  /-- An account is signed in or out. -/
  | session (e : Session.Event)
  /-- The user edits the fields. -/
  | edit (form : Nat) (newPassword confirmPassword : Str)
  | changePasswordButton (form : Nat)
  | updatePasswordAnswered (call : PasswordUpdate) (isUpdated : Bool)
  /-- The completion of an answered call runs. -/
  | completion (form : Nat) (isUpdated : Bool)

/-- The state after the event; `none` if the event cannot happen. -/
def step (p : Passwords) : Event → Option Passwords
  | .session e => some { p with currentUser := accountAfter p.currentUser e }
  | .edit form newPassword confirmPassword =>
    some (p.modify form fun f => { f with newPassword, confirmPassword })
  | .changePasswordButton form => some (p.changePasswordButton form)
  | .updatePasswordAnswered call isUpdated =>
    if call ∈ p.updating then
      some { p with
        updating := p.updating.erase call
        updated := p.updated ++ [⟨call.form, isUpdated⟩]
        password :=
          if isUpdated then Function.update p.password call.uid call.newPassword else p.password }
    else none
  | .completion form isUpdated =>
    if ⟨form, isUpdated⟩ ∈ p.updated then
      some ({ p with updated := p.updated.erase ⟨form, isUpdated⟩ }.modify form
        (if isUpdated then .succesChangePassword else .configureErrorPasswordTextFields))
    else none

/-! ## The calls and their outcomes -/

/-- The call that a tap makes. -/
def asked? : Passwords × Event → Option PasswordUpdate
  | (p, .changePasswordButton form) =>
    if (p.fields form).newPassword ≠ [] ∧
        (p.fields form).newPassword = (p.fields form).confirmPassword then
      p.currentUser.map fun uid => ⟨form, uid, (p.fields form).newPassword⟩
    else none
  | _ => none

/-- The texts of the form differ at a tap. -/
def differ? : Passwords × Event → Option Nat
  | (p, .changePasswordButton form) =>
    if (p.fields form).newPassword ≠ [] ∧
        (p.fields form).newPassword ≠ (p.fields form).confirmPassword then some form
    else none
  | _ => none

/-- The outcome that an event has at the form. -/
def outcome? (form : Nat) (x : Passwords × Event) : Option Bool :=
  match x.2 with
  | .completion i isUpdated => if i = form then some isUpdated else none
  | _ => if differ? x = some form then some false else none

/-- The tap is an attempt to change a password with the form. -/
def isAttempt (form : Nat) (x : Passwords × Event) : Bool :=
  decide ((asked? x).map PasswordUpdate.form = some form) || decide (differ? x = some form)

/-- The calls of the form that have no outcome. -/
def inFlight (p : Passwords) (form : Nat) : Nat :=
  p.updating.countP (fun call => call.form = form) + p.updated.countP (fun x => x.form = form)

def Event.answered? : Event → Option PasswordUpdate
  | updatePasswordAnswered call _ => some call
  | _ => none

/-- The password that an answer of the service gives the account. -/
def Event.set? (uid : Uid) : Event → Option Str
  | updatePasswordAnswered call true => if call.uid = uid then some call.newPassword else none
  | _ => none

/-- A tap makes a call, or the texts differ, or it does nothing. -/
theorem changePasswordButton_cases (p : Passwords) (form : Nat) :
    (∃ uid text, asked? (p, .changePasswordButton form) = some ⟨form, uid, text⟩ ∧
      differ? (p, .changePasswordButton form) = none ∧
      p.changePasswordButton form = { p with updating := p.updating ++ [⟨form, uid, text⟩] }) ∨
    (asked? (p, .changePasswordButton form) = none ∧
      differ? (p, .changePasswordButton form) = some form ∧
      p.changePasswordButton form = p.modify form .configureErrorPasswordTextFields) ∨
    (asked? (p, .changePasswordButton form) = none ∧
      differ? (p, .changePasswordButton form) = none ∧ p.changePasswordButton form = p) := by
  by_cases hempty : (p.fields form).newPassword = []
  · refine .inr (.inr ⟨?_, ?_, ?_⟩) <;> simp [asked?, differ?, changePasswordButton, hempty]
  · by_cases heq : (p.fields form).newPassword = (p.fields form).confirmPassword
    · have hdiffer : differ? (p, .changePasswordButton form) = none := by simp [differ?, heq]
      have htap : p.changePasswordButton form =
          p.changePassword form (p.fields form).newPassword (p.fields form).confirmPassword := by
        simp [changePasswordButton, hempty]
      rw [htap]
      cases hcurrent : p.currentUser with
      | some uid =>
        refine .inl ⟨uid, (p.fields form).newPassword, ?_, hdiffer, ?_⟩
        · rw [asked?, if_pos ⟨hempty, heq⟩, hcurrent]; rfl
        · simp [changePassword, ← heq, hcurrent]
      | none =>
        refine .inr (.inr ⟨?_, hdiffer, ?_⟩)
        · simp [asked?, hcurrent]
        · simp [changePassword, ← heq, hcurrent]
    · refine .inr (.inl ⟨?_, ?_, ?_⟩) <;>
        simp [asked?, differ?, changePasswordButton, changePassword, hempty, heq]

theorem typed_of_asked {p : Passwords} {e : Event} {call : PasswordUpdate}
    (h : asked? (p, e) = some call) : e = .changePasswordButton call.form ∧
      p.currentUser = some call.uid ∧ call.newPassword ≠ [] ∧
      (p.fields call.form).newPassword = call.newPassword ∧
      (p.fields call.form).confirmPassword = call.newPassword := by
  cases e with
  | changePasswordButton form =>
    simp only [asked?] at h
    split at h
    · rename_i htext
      obtain ⟨uid, huid, rfl⟩ := Option.map_eq_some_iff.mp h
      exact ⟨rfl, huid, htext.1, rfl, htext.2.symm⟩
    · cases h
  | _ => cases h

/-- What a step can do. -/
inductive StepTo (p : Passwords) : Event → Passwords → Prop
  | session (e : Session.Event) :
    StepTo p (.session e) { p with currentUser := accountAfter p.currentUser e }
  | edit (form : Nat) (newPassword confirmPassword : Str) :
    StepTo p (.edit form newPassword confirmPassword)
      (p.modify form fun f => { f with newPassword, confirmPassword })
  | asks (form : Nat) (uid : Uid) (text : Str)
    (hasked : asked? (p, .changePasswordButton form) = some ⟨form, uid, text⟩)
    (hdiffer : differ? (p, .changePasswordButton form) = none) :
    StepTo p (.changePasswordButton form)
      { p with updating := p.updating ++ [⟨form, uid, text⟩] }
  | differs (form : Nat) (hasked : asked? (p, .changePasswordButton form) = none)
    (hdiffer : differ? (p, .changePasswordButton form) = some form) :
    StepTo p (.changePasswordButton form) (p.modify form .configureErrorPasswordTextFields)
  | idle (form : Nat) (hasked : asked? (p, .changePasswordButton form) = none)
    (hdiffer : differ? (p, .changePasswordButton form) = none) :
    StepTo p (.changePasswordButton form) p
  | answered (call : PasswordUpdate) (isUpdated : Bool) (hm : call ∈ p.updating) :
    StepTo p (.updatePasswordAnswered call isUpdated)
      { p with
        updating := p.updating.erase call
        updated := p.updated ++ [⟨call.form, isUpdated⟩]
        password :=
          if isUpdated then Function.update p.password call.uid call.newPassword else p.password }
  | completion (form : Nat) (isUpdated : Bool) (hm : ⟨form, isUpdated⟩ ∈ p.updated) :
    StepTo p (.completion form isUpdated)
      ({ p with updated := p.updated.erase ⟨form, isUpdated⟩ }.modify form
        (if isUpdated then .succesChangePassword else .configureErrorPasswordTextFields))

theorem step_to {p p' : Passwords} {e : Event} (h : step p e = some p') : StepTo p e p' := by
  cases e with
  | session e => cases h; exact .session e
  | edit form newPassword confirmPassword => cases h; exact .edit form _ _
  | changePasswordButton form =>
    cases h
    rcases changePasswordButton_cases p form with
      ⟨uid, text, hasked, hdiffer, hp⟩ | ⟨hasked, hdiffer, hp⟩ | ⟨hasked, hdiffer, hp⟩
    · rw [hp]; exact .asks form uid text hasked hdiffer
    · rw [hp]; exact .differs form hasked hdiffer
    · rw [hp]; exact .idle form hasked hdiffer
  | updatePasswordAnswered call isUpdated =>
    simp only [step] at h
    split at h
    · rename_i hm; cases h; exact .answered call isUpdated hm
    · cases h
  | completion form isUpdated =>
    simp only [step] at h
    split at h
    · rename_i hm; cases h; exact .completion form isUpdated hm
    · cases h

/-! ## Runs -/

/-- Each call is answered once or under way. -/
theorem asked_perm {s t : Passwords} (h0 : s.updating = []) {es : List Event}
    (hrun : Machine.run step s es = some t) :
    ((Machine.steps step s es).filterMap asked?).Perm
      (es.filterMap Event.answered? ++ t.updating) := by
  refine Machine.run_history (I := fun es t => ((Machine.steps step s es).filterMap asked?).Perm
    (es.filterMap Event.answered? ++ t.updating)) (by simp [h0]) ?_ hrun
  intro es e m t hm ih hstep
  rw [Machine.steps_concat hm, Machine.filterMap_concat, Machine.filterMap_concat]
  cases step_to hstep with
  | asks form uid text hasked _ =>
    rw [hasked]
    simpa [Event.answered?] using ih.append_right [⟨form, uid, text⟩]
  | differs form hasked _ => rw [hasked]; simpa [Event.answered?, modify] using ih
  | idle form hasked _ => rw [hasked]; simpa [Event.answered?] using ih
  | answered call isUpdated hm =>
    have hperm := ih.trans ((List.perm_cons_erase hm).append_left _)
    simpa [asked?, Event.answered?] using hperm
  | _ => simpa [asked?, Event.answered?, modify] using ih

/-- An attempt has an outcome, or its call is under way. -/
theorem inFlight_step {p p' : Passwords} {e : Event} (hstep : step p e = some p') (form : Nat) :
    (if isAttempt form (p, e) then 1 else 0) + p.inFlight form =
      (outcome? form (p, e)).toList.length + p'.inFlight form := by
  cases step_to hstep with
  | asks i uid text hasked hdiffer =>
    by_cases hi : i = form
    · subst hi; simp [isAttempt, outcome?, hasked, hdiffer, inFlight]; omega
    · simp [isAttempt, outcome?, hasked, hdiffer, hi, inFlight]
  | differs i hasked hdiffer =>
    by_cases hi : i = form
    · subst hi; simp [isAttempt, outcome?, hasked, hdiffer, inFlight, modify]
    · simp [isAttempt, outcome?, hasked, hdiffer, hi, inFlight, modify]
  | idle i hasked hdiffer => simp [isAttempt, outcome?, hasked, hdiffer]
  | answered call isUpdated hm =>
    have hcount := (List.perm_cons_erase hm).countP_eq (fun call => decide (call.form = form))
    rw [List.countP_cons] at hcount
    simp [isAttempt, outcome?, asked?, differ?, inFlight, hcount, List.countP_cons]
    omega
  | completion i isUpdated hm =>
    have hcount := (List.perm_cons_erase hm).countP_eq (fun x => decide (x.form = form))
    rw [List.countP_cons] at hcount
    by_cases hi : i = form
    · simp [isAttempt, outcome?, asked?, differ?, inFlight, modify, hi] at hcount ⊢
      omega
    · simp [isAttempt, outcome?, asked?, differ?, inFlight, modify, hi] at hcount ⊢
      omega
  | _ => simp [isAttempt, asked?, differ?, outcome?, inFlight, modify]

theorem marked_modify (p : Passwords) (i : Nat) (f : PasswordFields → PasswordFields)
    (form : Nat) : ((p.modify i f).fields form).marked =
      if i = form then (f (p.fields form)).marked else (p.fields form).marked := by
  by_cases hi : i = form
  · subst hi; simp [modify]
  · simp [modify, Function.update_of_ne (Ne.symm hi), hi]

/-- The fields are red iff the last outcome is a failure. -/
theorem marked_step {p p' : Passwords} {e : Event} (hstep : step p e = some p') (form : Nat) :
    (p'.fields form).marked = ((outcome? form (p, e)).map not).getD (p.fields form).marked := by
  cases step_to hstep with
  | asks i uid text _ hdiffer => simp [outcome?, hdiffer]
  | differs i _ hdiffer =>
    rw [marked_modify]
    by_cases hi : i = form
    · subst hi; simp [outcome?, hdiffer, PasswordFields.configureErrorPasswordTextFields]
    · simp [outcome?, hdiffer, hi]
  | idle i _ hdiffer => simp [outcome?, hdiffer]
  | completion i isUpdated _ =>
    rw [marked_modify]
    by_cases hi : i = form
    · cases isUpdated <;> simp [outcome?, hi, PasswordFields.succesChangePassword,
        PasswordFields.configureErrorPasswordTextFields]
    · simp [outcome?, hi]
  | _ => simp [outcome?, differ?, marked_modify]

/-- The password of an account is what the last accepted call for it has set. -/
theorem password_run {s t : Passwords} {es : List Event} (hrun : Machine.run step s es = some t)
    (uid : Uid) :
    t.password uid = (es.filterMap (Event.set? uid)).getLast?.getD (s.password uid) := by
  refine Machine.run_getLast? (g := fun p => p.password uid) (fun p e p' hstep => ?_) hrun
  cases step_to hstep with
  | answered call isUpdated _ =>
    cases isUpdated with
    | false => rfl
    | true =>
      by_cases huid : call.uid = uid
      · subst huid; simp [Event.set?]
      · simp [Event.set?, huid, Function.update_of_ne (Ne.symm huid)]
  | _ => rfl

/-- An accepted call was made at a tap with its text in both fields. -/
theorem exists_tap_of_set {s t : Passwords} (h0 : s.updating = []) {es : List Event}
    (hrun : Machine.run step s es = some t) {uid : Uid} {text : Str}
    (hset : text ∈ es.filterMap (Event.set? uid)) :
    ∃ pre form post m, es = pre ++ .changePasswordButton form :: post ∧
      Machine.run step s pre = some m ∧ m.currentUser = some uid ∧ text ≠ [] ∧
      (m.fields form).newPassword = text ∧ (m.fields form).confirmPassword = text := by
  obtain ⟨e, he, hset⟩ := List.mem_filterMap.mp hset
  obtain ⟨call, rfl, huid, rfl⟩ : ∃ call, e = .updatePasswordAnswered call true ∧
      call.uid = uid ∧ call.newPassword = text := by
    unfold Event.set? at hset
    split at hset
    · split at hset
      · exact ⟨_, rfl, ‹_›, Option.some.inj hset⟩
      · cases hset
    · cases hset
  have hanswered : call ∈ es.filterMap Event.answered? := List.mem_filterMap.mpr ⟨_, he, rfl⟩
  have hasked := (asked_perm h0 hrun).mem_iff.mpr (List.mem_append_left t.updating hanswered)
  obtain ⟨⟨m, tap⟩, hx, hasked⟩ := List.mem_filterMap.mp hasked
  obtain ⟨pre, post, hes, hm⟩ := Machine.mem_steps.mp hx
  obtain ⟨rfl, hcurrent, hne, hnew, hconfirm⟩ := typed_of_asked hasked
  exact ⟨pre, call.form, post, m, hes, hm, huid ▸ hcurrent, hne, hnew, hconfirm⟩

/-- For every run from `start`, with any calls in flight and any changes of the account: the
password of an account is its initial one, or a text that is not empty and was in both fields of a
form at a tap, while the account was signed in. Each attempt with a form has one outcome there, or
its call is in flight; and the fields of the form are red iff its last outcome is a failure. -/
theorem password_typed_twice {account : Option Uid} {password : Uid → Str} {es : List Event}
    {t : Passwords} (hrun : Machine.run step (start account password) es = some t) :
    (∀ uid, t.password uid = password uid ∨
      ∃ pre form post m, es = pre ++ .changePasswordButton form :: post ∧
        Machine.run step (start account password) pre = some m ∧ m.currentUser = some uid ∧
        t.password uid ≠ [] ∧ (m.fields form).newPassword = t.password uid ∧
        (m.fields form).confirmPassword = t.password uid) ∧
      ∀ form,
        (Machine.steps step (start account password) es).countP (isAttempt form) =
          ((Machine.steps step (start account password) es).filterMap (outcome? form)).length +
            t.inFlight form ∧
        ((t.fields form).marked = true ↔
          ((Machine.steps step (start account password) es).filterMap (outcome? form)).getLast? =
            some false) := by
  refine ⟨fun uid => ?_, fun form => ⟨?_, ?_⟩⟩
  · have hpassword := password_run hrun uid
    cases hlast : (es.filterMap (Event.set? uid)).getLast? with
    | none => rw [hlast] at hpassword; exact .inl hpassword
    | some text =>
      rw [hlast, Option.getD_some] at hpassword
      rw [hpassword]
      exact .inr (exists_tap_of_set rfl hrun (List.mem_of_getLast? hlast))
  · refine Machine.run_history (I := fun es t =>
      (Machine.steps step (start account password) es).countP (isAttempt form) =
        ((Machine.steps step (start account password) es).filterMap (outcome? form)).length +
          t.inFlight form) rfl ?_ hrun
    intro es e m t hm ih hstep
    have hbalance := inFlight_step hstep form
    rw [Machine.steps_concat hm, Machine.filterMap_concat, List.countP_append, List.length_append,
      List.countP_singleton]
    omega
  · refine Machine.run_history (I := fun es t => (t.fields form).marked = true ↔
      ((Machine.steps step (start account password) es).filterMap (outcome? form)).getLast? =
        some false) (by simp [start]) ?_ hrun
    intro es e m t hm ih hstep
    rw [marked_step hstep, Machine.steps_concat hm, Machine.filterMap_concat]
    cases outcome? form (m, e) with
    | none => simpa using ih
    | some b => cases b <;> simp

/-- Ann asks for two passwords, and Bob is signed in before the answers, which come in the other
order. -/
def changing : List Event :=
  [.edit 0 (Str.of "first") (Str.of "first"), .changePasswordButton 0,
    .edit 0 (Str.of "second") (Str.of "second"), .changePasswordButton 0,
    .session (.signInUser (some (Str.of "bob"))),
    .updatePasswordAnswered ⟨0, Str.of "ann", Str.of "second"⟩ true,
    .updatePasswordAnswered ⟨0, Str.of "ann", Str.of "first"⟩ true, .completion 0 true]

theorem password_typed_twice_changing :
    ∃ t, Machine.run step (start (some (Str.of "ann")) fun _ => Str.of "secret") changing = some t ∧
      t.password (Str.of "ann") = Str.of "first" ∧ (t.fields 0).marked = false ∧
      (Machine.steps step (start (some (Str.of "ann")) fun _ => Str.of "secret") changing).countP
          (isAttempt 0) =
        ((Machine.steps step (start (some (Str.of "ann")) fun _ => Str.of "secret")
          changing).filterMap (outcome? 0)).length + t.inFlight 0 :=
  ⟨_, rfl, rfl, rfl, ((@password_typed_twice (some (Str.of "ann")) (fun _ => Str.of "secret")
    changing _ rfl).2 0).1⟩

end Passwords
end MyNews
