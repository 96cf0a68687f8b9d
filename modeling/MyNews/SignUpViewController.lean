import MyNews.Lib.Machine
import MyNews.OnlineRepository

/-!
# `SignUpViewController`

Next asks the auth service to create an account; when that has succeeded, `addUserItems` sets the
record of the current user. Nothing disables Next while the calls are in flight, and nothing undoes
the account when the record is not set.

The auth service refuses an e-mail that has an account. It makes a created account the current user
when it answers; the completion of the call runs later.

* `due`: the accounts whose records are on the way.
* `Served.step`: an undisturbed step leaves each account with its record, or with it on the way.
* `Served.stranded`: any other step leaves an account with neither, and `Stranded.step`: that
  account never gets its record.
* `sign_up_complete_iff`: so all accounts have their records iff every step was undisturbed.
-/

namespace MyNews

/-- The arguments of `createUser`. -/
structure Credentials where
  email : Str
  password : Str
  deriving DecidableEq

/-- What the screen does when an attempt has ended. -/
inductive Feedback where
  /-- `configureErrorTextFields`. -/
  | errorTextFields
  /-- `showToast`. -/
  | toast (message : Str)
  /-- The segue `signUpDone`. -/
  | signUpDone
  deriving DecidableEq

/-- The sign-up screen, with the services that it calls. The uid of an account is its position. -/
structure SignUpViewController where
  /-- The e-mails of the accounts. -/
  accounts : List Str
  currentUser : Option Nat
  /-- `users/<uid>`. -/
  records : Nat → Record
  /-- The calls of `createUser` that are not answered. -/
  creating : List Credentials
  /-- For each call that is answered and whose completion has not run, whether it has created an
  account. -/
  completions : List Bool
  /-- The accounts of the calls of `addUserItems` that are not answered. -/
  adding : List Nat
  /-- The accounts that the screen has created. -/
  created : List Nat
  feedback : List Feedback

namespace SignUpViewController

open OnlineRepository

/-- The screen when it opens. -/
def start (accounts : List Str) (currentUser : Option Nat) : SignUpViewController where
  accounts
  currentUser
  records := fun _ => Record.empty
  creating := []
  completions := []
  adding := []
  created := []
  feedback := []

def somethingWentWrong : Str := Str.of "Something went wrong. Please try again"

/-- `nextButton`. -/
def nextButton (c : SignUpViewController) (email password confirmPassword : Str) :
    SignUpViewController :=
  if password ≠ confirmPassword then { c with feedback := c.feedback ++ [.errorTextFields] }
  else { c with creating := c.creating ++ [⟨email, password⟩] }

/-- The auth service creates the account. -/
def create (c : SignUpViewController) (email : Str) : SignUpViewController :=
  { c with
    accounts := c.accounts ++ [email]
    currentUser := some c.accounts.length
    created := c.created ++ [c.accounts.length] }

/-- The closure `viewModel.successCreateUser`; `none` where `user!.uid` traps. -/
def successCreateUser (c : SignUpViewController) : Option SignUpViewController :=
  c.currentUser.map fun uid => { c with adding := c.adding ++ [uid] }

/-- The closure `viewModel.failedCreateUser`. -/
def failedCreateUser (c : SignUpViewController) : SignUpViewController :=
  { c with feedback := c.feedback ++ [.errorTextFields, .toast somethingWentWrong] }

/-- The closure `viewModel.successAddUserItems`. -/
def successAddUserItems (c : SignUpViewController) : SignUpViewController :=
  { c with feedback := c.feedback ++ [.signUpDone] }

/-- The closure `viewModel.failedAddUserItems`. -/
def failedAddUserItems (c : SignUpViewController) : SignUpViewController :=
  { c with feedback := c.feedback ++ [.toast somethingWentWrong] }

/-- What happens on the screen. -/
inductive Event where
  /-- The user taps Next. -/
  | next (email password confirmPassword : Str)
  /-- The auth service answers a call of `createUser`. -/
  | createUserAnswered (call : Credentials) (isCreated : Bool)
  /-- The completion of an answered call runs. -/
  | completion (isCreated : Bool)
  /-- The database answers a call of `addUserItems`. -/
  | addUserItemsAnswered (uid : Nat) (isSuccess : Bool)

/-- The screen after the event; `none` if the event cannot happen. -/
def step (c : SignUpViewController) : Event → Option SignUpViewController
  | .next email password confirmPassword => some (c.nextButton email password confirmPassword)
  | .createUserAnswered call isCreated =>
    if call ∈ c.creating ∧ (isCreated → c.accounts.contains call.email = false) then
      let c := { c with
        creating := c.creating.erase call, completions := c.completions ++ [isCreated] }
      some (if isCreated then c.create call.email else c)
    else none
  | .completion isCreated =>
    if isCreated ∈ c.completions then
      let c := { c with completions := c.completions.erase isCreated }
      if isCreated then c.successCreateUser else some c.failedCreateUser
    else none
  | .addUserItemsAnswered uid isSuccess =>
    if uid ∈ c.adding then
      let c := { c with adding := c.adding.erase uid }
      some (if isSuccess then
        { c with
          records := Function.update c.records uid
            (addUserItems.apply (c.records uid)) }.successAddUserItems
      else c.failedAddUserItems)
    else none

/-- No call is in flight. -/
def Quiet (c : SignUpViewController) : Prop :=
  c.creating = [] ∧ c.completions = [] ∧ c.adding = []

/-- Each account that the screen has created has its record. -/
def AllRecorded (c : SignUpViewController) : Prop := ∀ uid ∈ c.created, c.records uid = postInfo

/-- An account is created only after the completions of those before it, and the database accepts
each record. -/
def Undisturbed (c : SignUpViewController) : Event → Prop
  | .createUserAnswered _ isCreated => isCreated = true → true ∉ c.completions
  | .addUserItemsAnswered _ isSuccess => isSuccess = true
  | _ => True

/-! ## The records on the way -/

/-- The accounts whose records are on the way: the current user, while a completion waits that will
set its record, and the accounts whose records are being set. -/
def due (c : SignUpViewController) : List Nat :=
  (if true ∈ c.completions then c.currentUser.toList else []) ++ c.adding

/-- The accounts that the screen has created are among those of the service. -/
def Known (c : SignUpViewController) : Prop := ∀ uid ∈ c.created, uid < c.accounts.length

/-- Each created account has its record or is due, and none is due twice or with a record. -/
structure Served (c : SignUpViewController) : Prop where
  blank : ∀ uid, c.accounts.length ≤ uid → c.records uid = Record.empty
  once : c.completions.count true ≤ 1
  user : true ∈ c.completions → c.currentUser ≠ none
  nodup : c.due.Nodup
  due_created : ∀ uid ∈ c.due, uid ∈ c.created ∧ c.records uid ≠ postInfo
  recorded_or_due : ∀ uid ∈ c.created, c.records uid = postInfo ∨ uid ∈ c.due

/-- A created account has no record, and none is on the way. -/
def Stranded (c : SignUpViewController) : Prop :=
  ∃ uid ∈ c.created, c.records uid ≠ postInfo ∧ uid ∉ c.due

theorem due_of_quiet {c : SignUpViewController} (h : c.Quiet) : c.due = [] := by
  simp [due, h.2.1, h.2.2]

theorem Served.allRecorded {c : SignUpViewController} (h : Served c) (hq : c.Quiet) :
    AllRecorded c := by
  intro uid hu
  rcases h.recorded_or_due uid hu with hr | hd
  · exact hr
  · rw [due_of_quiet hq] at hd
    cases hd

theorem Stranded.not_allRecorded {c : SignUpViewController} (h : Stranded c) : ¬ AllRecorded c := by
  obtain ⟨uid, hu, hr, -⟩ := h
  exact fun ha => hr (ha uid hu)

/-! ## What a step does -/

/-- What a step can do to the accounts, the records and those that are due. -/
inductive StepTo (c : SignUpViewController) : Event → SignUpViewController → Prop
  | quiet (e : Event) (c' : SignUpViewController) (hu : Undisturbed c e)
    (hacc : c'.accounts = c.accounts) (hrec : c'.records = c.records)
    (hcre : c'.created = c.created) (hcount : c'.completions.count true ≤ c.completions.count true)
    (huser : c'.currentUser = c.currentUser) (hsub : c'.due ⊆ c.due)
    (hdue : c.completions.count true ≤ 1 → c'.due.Perm c.due) : StepTo c e c'
  | create (call : Credentials) (c' : SignUpViewController)
    (hacc : c'.accounts = c.accounts ++ [call.email]) (hrec : c'.records = c.records)
    (hcre : c'.created = c.created ++ [c.accounts.length])
    (hcomp : c'.completions = c.completions ++ [true])
    (huser : c'.currentUser = some c.accounts.length)
    (hadd : c'.adding = c.adding) : StepTo c (.createUserAnswered call true) c'
  | answer (uid : Nat) (isSuccess : Bool) (c' : SignUpViewController) (hadding : uid ∈ c.adding)
    (hacc : c'.accounts = c.accounts)
    (hrec : c'.records = if isSuccess then Function.update c.records uid postInfo else c.records)
    (hcre : c'.created = c.created) (hcomp : c'.completions = c.completions)
    (huser : c'.currentUser = c.currentUser) (hadd : c'.adding = c.adding.erase uid) :
    StepTo c (.addUserItemsAnswered uid isSuccess) c'

theorem due_congr {c c' : SignUpViewController}
    (h : true ∈ c'.completions ↔ true ∈ c.completions) (hu : c'.currentUser = c.currentUser)
    (ha : c'.adding = c.adding) : c'.due = c.due := by
  simp only [due, h, hu, ha]

/-- A step that leaves the records on the way as they are. -/
theorem StepTo.frame {c c' : SignUpViewController} {e : Event} (hu : Undisturbed c e)
    (hacc : c'.accounts = c.accounts) (hrec : c'.records = c.records)
    (hcre : c'.created = c.created) (hcount : c'.completions.count true = c.completions.count true)
    (huser : c'.currentUser = c.currentUser) (hadd : c'.adding = c.adding) : StepTo c e c' := by
  have hmem : true ∈ c'.completions ↔ true ∈ c.completions := by
    rw [← List.count_pos_iff, ← List.count_pos_iff, hcount]
  have hdue := due_congr hmem huser hadd
  refine .quiet e c' hu hacc hrec hcre (Nat.le_of_eq hcount) huser ?_ ?_
  · rw [hdue]; exact fun _ h => h
  · rw [hdue]; exact fun _ => List.Perm.refl _

/-- The current user was due for the completion, and is now due for the write. -/
theorem stepTo_completion {c : SignUpViewController} {uid : Nat} (hc : true ∈ c.completions)
    (hcur : c.currentUser = some uid) : StepTo c (.completion true)
      { c with completions := c.completions.erase true, adding := c.adding ++ [uid] } := by
  have hold : c.due = [uid] ++ c.adding := by simp [due, hc, hcur]
  have hcount := List.count_erase_self (a := true) (l := c.completions)
  refine .quiet _ _ trivial rfl rfl rfl ?_ rfl ?_ fun hone => ?_
  · show (c.completions.erase true).count true ≤ _
    omega
  · rw [hold]
    intro x hx
    simp only [due, hcur] at hx
    split at hx <;> simp at hx ⊢ <;> tauto
  · have hrest : true ∉ c.completions.erase true :=
      List.count_eq_zero.mp (by omega)
    rw [hold, due]
    simp only [hrest, ↓reduceIte, List.nil_append]
    exact List.perm_append_comm

theorem step_to {c c' : SignUpViewController} {e : Event} (h : step c e = some c') :
    StepTo c e c' := by
  cases e with
  | next email password confirm =>
    cases h
    unfold nextButton
    split
    · exact .frame trivial rfl rfl rfl rfl rfl rfl
    · exact .frame trivial rfl rfl rfl rfl rfl rfl
  | createUserAnswered call isCreated =>
    simp only [step] at h
    split at h
    · cases isCreated with
      | true => cases h; exact .create call _ rfl rfl rfl rfl rfl rfl
      | false =>
        cases h
        exact .frame (by simp [Undisturbed]) rfl rfl rfl (by simp) rfl rfl
    · cases h
  | completion isCreated =>
    simp only [step] at h
    split at h
    · rename_i hc
      cases isCreated with
      | true =>
        obtain ⟨uid, hu, rfl⟩ := Option.map_eq_some_iff.mp h
        exact stepTo_completion hc hu
      | false =>
        cases h
        refine .frame trivial rfl rfl rfl ?_ rfl rfl
        exact List.count_erase_of_ne (by decide)
    · cases h
  | addUserItemsAnswered uid isSuccess =>
    simp only [step] at h
    split at h
    · rename_i hm
      cases isSuccess with
      | true => cases h; exact .answer uid true _ hm rfl rfl rfl rfl rfl rfl
      | false => cases h; exact .answer uid false _ hm rfl rfl rfl rfl rfl rfl
    · cases h

theorem Known.step {c c' : SignUpViewController} {e : Event} (h : Known c)
    (hs : SignUpViewController.step c e = some c') : Known c' := by
  unfold Known
  cases step_to hs with
  | quiet e c' _ hacc _ hcre _ _ _ _ => rw [hcre, hacc]; exact h
  | create call c' hacc _ hcre _ _ _ =>
    rw [hcre, hacc, List.length_append]
    intro uid hu
    rcases List.mem_append.mp hu with hu | hu
    · exact Nat.lt_succ_of_lt (h uid hu)
    · rw [List.mem_singleton.mp hu]
      exact Nat.lt_succ_self _
  | answer uid b c' _ hacc _ hcre _ _ _ => rw [hcre, hacc]; exact h

theorem adding_subset_due (c : SignUpViewController) : c.adding ⊆ c.due :=
  List.subset_append_right _ _

/-- After a creation the new account is due first, and then those whose records are being set. -/
theorem due_create {c c' : SignUpViewController} (hcomp : c'.completions = c.completions ++ [true])
    (huser : c'.currentUser = some c.accounts.length) (hadd : c'.adding = c.adding) :
    c'.due = c.accounts.length :: c.adding := by
  simp [due, hcomp, huser, hadd]

/-- After an answer those are due that were, but for the account of the answer. -/
theorem due_answer {c c' : SignUpViewController} {uid : Nat} (hnodup : c.due.Nodup)
    (hmem : uid ∈ c.adding) (hcomp : c'.completions = c.completions)
    (huser : c'.currentUser = c.currentUser) (hadd : c'.adding = c.adding.erase uid) :
    c'.due = c.due.erase uid := by
  have hd : uid ∉ if true ∈ c.completions then c.currentUser.toList else [] :=
    fun h => (List.nodup_append.mp hnodup).2.2 uid h uid hmem rfl
  rw [due, due, hcomp, huser, hadd, List.erase_append_right _ hd]

/-- An account that is stranded stays so. -/
theorem Stranded.step {c c' : SignUpViewController} {e : Event} (h : Stranded c) (hk : Known c)
    (hs : SignUpViewController.step c e = some c') : Stranded c' := by
  obtain ⟨u, hu, hr, hd⟩ := h
  cases step_to hs with
  | quiet e c' _ _ hrec hcre _ _ hsub _ =>
    exact ⟨u, by rw [hcre]; exact hu, by rw [hrec]; exact hr, fun h => hd (hsub h)⟩
  | create call c' _ hrec hcre hcomp huser hadd =>
    refine ⟨u, by rw [hcre]; exact List.mem_append_left _ hu, by rw [hrec]; exact hr, fun h => ?_⟩
    rw [due_create hcomp huser hadd] at h
    rcases List.mem_cons.mp h with rfl | h
    · exact absurd (hk _ hu) (Nat.lt_irrefl _)
    · exact hd (adding_subset_due c h)
  | answer uid b c' hm _ hrec hcre hcomp huser hadd =>
    have hne : u ≠ uid := fun he => hd (he ▸ adding_subset_due c hm)
    refine ⟨u, by rw [hcre]; exact hu, ?_, fun h => hd ?_⟩
    · rw [hrec]
      split
      · rw [Function.update_of_ne hne]; exact hr
      · exact hr
    · rw [due, hcomp, huser, hadd] at h
      rw [due]
      rcases List.mem_append.mp h with h | h
      · exact List.mem_append_left _ h
      · exact List.mem_append_right _ (List.mem_of_mem_erase h)

/-- An account is served as before where the accounts due are those of before. -/
theorem Served.quiet {c c' : SignUpViewController} (h : Served c)
    (hacc : c'.accounts = c.accounts) (hrec : c'.records = c.records)
    (hcre : c'.created = c.created) (hcount : c'.completions.count true ≤ c.completions.count true)
    (huser : c'.currentUser = c.currentUser) (hdue : c'.due.Perm c.due) : Served c' where
  blank := by rw [hacc, hrec]; exact h.blank
  once := Nat.le_trans hcount h.once
  user ht := by
    have hpos := List.count_pos_iff.mpr ht
    rw [huser]
    exact h.user (List.count_pos_iff.mp (Nat.lt_of_lt_of_le hpos hcount))
  nodup := hdue.nodup_iff.mpr h.nodup
  due_created uid hu := by
    rw [hcre, hrec]
    exact h.due_created uid (hdue.mem_iff.mp hu)
  recorded_or_due uid hu := by
    rw [hcre] at hu
    rw [hrec, hdue.mem_iff]
    exact h.recorded_or_due uid hu

theorem empty_ne_postInfo : Record.empty ≠ postInfo := by
  intro he
  have := congrFun he .userName
  cases this

/-- A new account is due, and takes no other account's place, where no completion waits. -/
theorem Served.create {c c' : SignUpViewController} {email : Str} (h : Served c) (hk : Known c)
    (hwait : true ∉ c.completions) (hacc : c'.accounts = c.accounts ++ [email])
    (hrec : c'.records = c.records) (hcre : c'.created = c.created ++ [c.accounts.length])
    (hcomp : c'.completions = c.completions ++ [true])
    (huser : c'.currentUser = some c.accounts.length) (hadd : c'.adding = c.adding) :
    Served c' := by
  have hold : c.due = c.adding := by simp [due, hwait]
  have hdue : c'.due = c.accounts.length :: c.due := by
    rw [due_create hcomp huser hadd, hold]
  exact
    { blank := fun uid hu => by
        rw [hacc, List.length_append] at hu
        rw [hrec]
        exact h.blank uid (Nat.le_of_succ_le hu)
      once := by
        rw [hcomp, List.count_append, List.count_eq_zero.mpr hwait]
        rfl
      user := fun _ => by rw [huser]; simp
      nodup := by
        rw [hdue, List.nodup_cons]
        exact ⟨fun hu => Nat.lt_irrefl _ (hk _ (h.due_created _ hu).1), h.nodup⟩
      due_created := fun uid hu => by
        rw [hdue] at hu
        rw [hcre, hrec]
        rcases List.mem_cons.mp hu with rfl | hu
        · rw [h.blank _ (Nat.le_refl _)]
          exact ⟨List.mem_append_right _ (List.mem_singleton_self _), empty_ne_postInfo⟩
        · exact (h.due_created uid hu).imp_left (List.mem_append_left _)
      recorded_or_due := fun uid hu => by
        rw [hcre] at hu
        rw [hrec, hdue]
        rcases List.mem_append.mp hu with hu | hu
        · exact (h.recorded_or_due uid hu).imp_right (List.mem_cons_of_mem _)
        · rw [List.mem_singleton.mp hu]
          exact .inr List.mem_cons_self }

/-- The account whose record the database accepts is no longer due, and has its record. -/
theorem Served.answer {c c' : SignUpViewController} {uid : Nat} (h : Served c) (hk : Known c)
    (hadding : uid ∈ c.adding) (hacc : c'.accounts = c.accounts)
    (hrec : c'.records = Function.update c.records uid postInfo) (hcre : c'.created = c.created)
    (hcomp : c'.completions = c.completions) (huser : c'.currentUser = c.currentUser)
    (hadd : c'.adding = c.adding.erase uid) : Served c' := by
  have hdue := due_answer h.nodup hadding hcomp huser hadd
  have hlt := hk uid (h.due_created uid (adding_subset_due c hadding)).1
  exact
    { blank := fun u hu => by
        rw [hacc] at hu
        have hne : u ≠ uid := by omega
        rw [hrec, Function.update_of_ne hne]
        exact h.blank u hu
      once := by rw [hcomp]; exact h.once
      user := by rw [hcomp, huser]; exact h.user
      nodup := by rw [hdue]; exact h.nodup.erase uid
      due_created := fun u hu => by
        rw [hdue, h.nodup.mem_erase_iff] at hu
        rw [hcre, hrec, Function.update_of_ne hu.1]
        exact h.due_created u hu.2
      recorded_or_due := fun u hu => by
        rw [hcre] at hu
        rw [hrec, hdue, h.nodup.mem_erase_iff]
        by_cases hne : u = uid
        · left; rw [hne, Function.update_self]
        · rw [Function.update_of_ne hne]
          exact (h.recorded_or_due u hu).imp_right fun hdu => ⟨hne, hdu⟩ }

/-- An undisturbed step leaves each account with its record, or due. -/
theorem Served.step {c c' : SignUpViewController} {e : Event} (h : Served c) (hk : Known c)
    (hs : SignUpViewController.step c e = some c') (hund : Undisturbed c e) : Served c' := by
  cases step_to hs with
  | quiet e c' _ hacc hrec hcre hcount huser _ hdue =>
    exact h.quiet hacc hrec hcre hcount huser (hdue h.once)
  | create call c' hacc hrec hcre hcomp huser hadd =>
    have hwait : true ∉ c.completions := hund rfl
    exact h.create hk hwait hacc hrec hcre hcomp huser hadd
  | answer uid b c' hm hacc hrec hcre hcomp huser hadd =>
    have hb : b = true := hund
    rw [hb, if_pos rfl] at hrec
    exact h.answer hk hm hacc hrec hcre hcomp huser hadd

/-- Any other step strands an account. -/
theorem Served.stranded {c c' : SignUpViewController} {e : Event} (h : Served c) (hk : Known c)
    (hs : SignUpViewController.step c e = some c') (hund : ¬ Undisturbed c e) : Stranded c' := by
  cases step_to hs with
  | quiet e c' hu _ _ _ _ _ _ _ => exact (hund hu).elim
  | create call c' hacc hrec hcre hcomp huser hadd =>
    -- The current user waits for its completion, which will be about the new account.
    have ht : true ∈ c.completions := by simpa [Undisturbed] using hund
    obtain ⟨u, hu⟩ := Option.ne_none_iff_exists'.mp (h.user ht)
    have hdue : c.due = u :: c.adding := by simp [due, ht, hu]
    obtain ⟨hcreated, hr⟩ := h.due_created u (by rw [hdue]; exact List.mem_cons_self)
    refine ⟨u, by rw [hcre]; exact List.mem_append_left _ hcreated, by rw [hrec]; exact hr, ?_⟩
    rw [due_create hcomp huser hadd]
    intro hm
    rcases List.mem_cons.mp hm with rfl | hm
    · exact Nat.lt_irrefl _ (hk _ hcreated)
    · have hn := h.nodup
      rw [hdue, List.nodup_cons] at hn
      exact hn.1 hm
  | answer uid b c' hm hacc hrec hcre hcomp huser hadd =>
    have hb : b = false := by simpa [Undisturbed] using hund
    subst hb
    obtain ⟨hcreated, hr⟩ := h.due_created uid (adding_subset_due c hm)
    refine ⟨uid, by rw [hcre]; exact hcreated, by rw [hrec]; exact hr, ?_⟩
    rw [due_answer h.nodup hm hcomp huser hadd]
    exact h.nodup.not_mem_erase

/-! ## Runs -/

theorem served_start (accounts : List Str) (currentUser : Option Nat) :
    Served (start accounts currentUser) where
  blank _ _ := rfl
  once := Nat.zero_le _
  user h := by cases h
  nodup := List.nodup_nil
  due_created _ h := by cases h
  recorded_or_due _ h := by cases h

/-- For every run of the sign-up screen that ends with no call in flight: each account that it has
created has its record iff every account was created after the completions of those before it, and
the database accepted each record. -/
theorem sign_up_complete_iff {accounts : List Str} {currentUser : Option Nat} {es : List Event}
    {t : SignUpViewController} (hrun : Machine.run step (start accounts currentUser) es = some t)
    (hquiet : t.Quiet) :
    AllRecorded t ↔
      ∀ x ∈ Machine.steps step (start accounts currentUser) es, Undisturbed x.1 x.2 := by
  have key := Machine.run_good_or_bad (G := fun t => Known t ∧ Served t)
    (B := fun t => Known t ∧ Stranded t) (Q := Undisturbed)
    ⟨fun _ h => (by cases h), served_start accounts currentUser⟩
    (fun m e t hs h hq => ⟨h.1.step hs, h.2.step h.1 hs hq⟩)
    (fun m e t hs h hq => ⟨h.1.step hs, h.2.stranded h.1 hs hq⟩)
    (fun m e t hs h => ⟨h.1.step hs, h.2.step h.1 hs⟩) hrun
  constructor
  · intro ha
    by_contra hn
    exact (key.2 hn).2.not_allRecorded ha
  · intro hu
    exact (key.1 hu).2.allRecorded hquiet

/-- One attempt: the account is created, and the database answers `isSuccess`. -/
def attempt (isSuccess : Bool) : List Event :=
  [.next (Str.of "a@b.c") (Str.of "secret") (Str.of "secret"),
    .createUserAnswered ⟨Str.of "a@b.c", Str.of "secret"⟩ true, .completion true,
    .addUserItemsAnswered 0 isSuccess]

/-- The same e-mail again: the auth service refuses it. -/
def retry : List Event :=
  [.next (Str.of "a@b.c") (Str.of "secret") (Str.of "secret"),
    .createUserAnswered ⟨Str.of "a@b.c", Str.of "secret"⟩ false, .completion false]

theorem sign_up_complete_iff_attempt :
    ∃ t, Machine.run step (start [] none) (attempt true) = some t ∧
      (AllRecorded t ↔ ∀ x ∈ Machine.steps step (start [] none) (attempt true),
        Undisturbed x.1 x.2) :=
  ⟨_, rfl, sign_up_complete_iff rfl ⟨rfl, rfl, rfl⟩⟩

/-- The record is rejected, the toast asks to try again, and the retry fails: the account has no
record. -/
theorem not_sign_up_complete_retry :
    ∃ t, Machine.run step (start [] none) (attempt false ++ retry) = some t ∧ t.Quiet ∧
      t.feedback = [.toast somethingWentWrong, .errorTextFields, .toast somethingWentWrong] ∧
      t.created = [0] ∧ t.records 0 = Record.empty ∧ ¬ AllRecorded t := by
  refine ⟨_, rfl, ⟨rfl, rfl, rfl⟩, rfl, rfl, rfl, fun h => ?_⟩
  have hr := congrFun (h 0 (by decide)) .userName
  cases hr

end SignUpViewController
end MyNews
