import MyNews.Lib.Machine
import MyNews.ProfileViewController

/-!
# Which account a record operation is about

A path below `users/` comes from one of two places. `addUserItems` asks `Auth.auth().currentUser`.
All other operations use the file-level `let user = Auth.auth().currentUser` of
`OnlineRepository.swift`, which Swift initialises once in a process, at its first use; a later
sign-in does not change it.

A run is any sequence of answers of the authentication service, of sign-outs and of operations, in
one process (`Process`, `step`). An operation is *sound* in a state if no `user!` in it fails and
each path it reads or writes is the one of the account that is signed in.

* `perform_of_usesUser`: what the operations that use the file-level `user` have in common.
* `sound_steps_iff`: every operation of a run is sound iff the accounts fit the file-level `user`
  (`Fits`); for a process that starts, iff the operations are under one account (`OneAccount`).
-/

namespace MyNews
namespace Session

/-- `User.uid`. -/
abbrev Uid := Str

/-- The account state of a process. -/
structure Process where
  /-- `Auth.auth().currentUser`. -/
  currentUser : Option Uid
  /-- The file-level `user`: `none` before its first use. -/
  user : Option (Option Uid)
  deriving DecidableEq

/-- A use of the record at `users/<uid>`. -/
inductive Access where
  | observe (uid : Uid)
  | setValue (uid : Uid) (write : Write)
  deriving DecidableEq

/-- The account of the path. -/
def Access.uid : Access → Uid
  | observe uid => uid
  | setValue uid _ => uid

/-- An operation on the record. -/
inductive Operation where
  | isUserProfileEmpty
  | currentCity
  | getUserSources
  | saveUserSources (newSources : List Str)
  /-- The profile screen loads the record. -/
  | configureUserInfo
  /-- The profile screen saves the form. -/
  | handleDismis (form : ProfileViewController.Form)
  | addUserItems
  deriving DecidableEq

namespace Process

/-- The process after its start; the service may still know the account of an earlier one. -/
def launch (currentUser : Option Uid) : Process := { currentUser, user := none }

/-- `user!`: the account, and the process with `user` initialised; `none` if the unwrap fails. -/
def forceUser (p : Process) : Option (Uid × Process) :=
  let user := p.user.getD p.currentUser
  user.map fun uid => (uid, { p with user := some user })

/-- `ref.child("users").child("\(user!.uid)").observe(.value)`. -/
def observe (p : Process) : Option (List Access × Process) :=
  p.forceUser.map fun (uid, p) => ([.observe uid], p)

/-- The paths that an operation uses, and the process after it; `none` if an unwrap fails. The
saves of the profile screen unwrap `user` once for each write; it does not change between them. -/
def perform (p : Process) : Operation → Option (List Access × Process)
  | .isUserProfileEmpty => p.observe
  | .currentCity => p.observe
  | .getUserSources => p.observe
  | .saveUserSources newSources =>
    p.forceUser.map fun (uid, p) =>
      ([.setValue uid (SourcesViewModel.saveUserSources newSources)], p)
  | .configureUserInfo => p.observe
  | .handleDismis form =>
    match ProfileViewController.handleDismis form with
    | none => some ([], p)
    | some writes => p.forceUser.map fun (uid, p) => (writes.map (.setValue uid), p)
  | .addUserItems => p.currentUser.map fun uid => ([.setValue uid OnlineRepository.addUserItems], p)

end Process

/-- What happens in a process. The first two are the answers to `createUser` and `signInUser`: the
account, or an error. -/
inductive Event where
  | createUser (response : Option Uid)
  | signInUser (response : Option Uid)
  /-- The menu's Exit; `signOut` can throw. -/
  | exit (signedOut : Bool)
  | operation (op : Operation)
  deriving DecidableEq

/-- The account that is signed in after the event. -/
def accountAfter (account : Option Uid) : Event → Option Uid
  | .createUser (some uid) => some uid
  | .signInUser (some uid) => some uid
  | .exit true => none
  | _ => account

/-- The process after the event; `none` if it trapped. -/
def step (p : Process) : Event → Option Process
  | .operation op => (p.perform op).map Prod.snd
  | e => some { p with currentUser := accountAfter p.currentUser e }

/-- No unwrap fails in the event, and every path it uses is of the account that is signed in. -/
def Sound (p : Process) : Event → Prop
  | .operation op => ∃ accesses p', p.perform op = some (accesses, p') ∧
      ∀ a ∈ accesses, p.currentUser = some a.uid
  | _ => True

/-! ## The accounts of a run -/

namespace Operation

/-- The operation uses the record: a form that `checkInfo` rejects is not saved. -/
def usesRecord : Operation → Bool
  | handleDismis form => (ProfileViewController.handleDismis form).isSome
  | _ => true

/-- The operation uses the file-level `user`. -/
def usesUser : Operation → Bool
  | addUserItems => false
  | op => op.usesRecord

end Operation

/-- The operations of a run, each with the account that is signed in. -/
def operations : Option Uid → List Event → List (Option Uid × Operation)
  | _, [] => []
  | account, .operation op :: es => (account, op) :: operations account es
  | account, e :: es => operations (accountAfter account e) es

/-- An account is signed in at each operation that uses the record, and it is the same one at all
operations that use the file-level `user`. -/
structure OneAccount (ops : List (Option Uid × Operation)) : Prop where
  signedIn : ∀ x ∈ ops, x.2.usesRecord = true → x.1 ≠ none
  same : ∀ x ∈ ops, ∀ y ∈ ops, x.2.usesUser = true → y.2.usesUser = true → x.1 = y.1

/-- `OneAccount`, for a process with the file-level `user` in the state `user`. -/
structure Fits (user : Option (Option Uid)) (ops : List (Option Uid × Operation)) : Prop
    extends OneAccount ops where
  first : ∀ x ∈ ops, x.2.usesUser = true → ∀ u, user = some u → x.1 = u

theorem fits_none {ops : List (Option Uid × Operation)} : Fits none ops ↔ OneAccount ops :=
  ⟨fun h => h.toOneAccount, fun h => ⟨h, fun _ _ _ _ hu => by cases hu⟩⟩

/-! ## One operation -/

theorem forceUser_eq_some {p p' : Process} {uid : Uid} : p.forceUser = some (uid, p') ↔
    p.user.getD p.currentUser = some uid ∧ p' = { p with user := some (some uid) } := by
  simp only [Process.forceUser, Option.map_eq_some_iff, Prod.mk.injEq]
  constructor
  · rintro ⟨u, hu, rfl, rfl⟩; rw [hu]; exact ⟨rfl, rfl⟩
  · rintro ⟨hu, rfl⟩; exact ⟨uid, hu, rfl, by rw [hu]⟩

theorem handleDismis_ne_nil {form : ProfileViewController.Form} {writes : List Write}
    (h : ProfileViewController.handleDismis form = some writes) : writes ≠ [] := by
  obtain ⟨-, rfl⟩ := ProfileViewController.handleDismis_eq_some h
  simp

/-- An operation that uses the file-level `user` unwraps it, and uses the path of that account and
no other. -/
theorem perform_of_usesUser {op : Operation} (h : op.usesUser = true) :
    ∃ paths : Uid → List Access, (∀ uid, paths uid ≠ []) ∧ (∀ uid, ∀ a ∈ paths uid, a.uid = uid) ∧
      ∀ p : Process, p.perform op = p.forceUser.map fun x => (paths x.1, x.2) := by
  have hobs : ∃ paths : Uid → List Access, (∀ uid, paths uid ≠ []) ∧
      (∀ uid, ∀ a ∈ paths uid, a.uid = uid) ∧
      ∀ p : Process, p.observe = p.forceUser.map fun x => (paths x.1, x.2) :=
    ⟨fun uid => [.observe uid], by simp, by simp [Access.uid], fun _ => rfl⟩
  cases op with
  | isUserProfileEmpty => exact hobs
  | currentCity => exact hobs
  | getUserSources => exact hobs
  | saveUserSources l =>
    exact ⟨fun uid => [.setValue uid (SourcesViewModel.saveUserSources l)], by simp,
      by simp [Access.uid], fun _ => rfl⟩
  | configureUserInfo => exact hobs
  | handleDismis form =>
    obtain ⟨writes, hw⟩ := Option.isSome_iff_exists.mp h
    refine ⟨fun uid => writes.map (.setValue uid), ?_, ?_, fun p => ?_⟩
    · intro uid; simpa using handleDismis_ne_nil hw
    · simp [Access.uid]
    · simp only [Process.perform, hw]
  | addUserItems => cases h

/-- An operation that does not use the file-level `user` leaves the process as it is. It is sound
iff an account is signed in or it does not use the record. -/
theorem sound_of_not_usesUser {op : Operation} (h : op.usesUser = false) (p : Process) :
    (Sound p (.operation op) ↔ (op.usesRecord = true → p.currentUser ≠ none)) ∧
      (Sound p (.operation op) → step p (.operation op) = some p) := by
  cases op with
  | handleDismis form =>
    have hn : ProfileViewController.handleDismis form = none := by
      simpa [Operation.usesUser, Operation.usesRecord] using h
    have hp : p.perform (.handleDismis form) = some ([], p) := by simp [Process.perform, hn]
    have hs : Sound p (.operation (.handleDismis form)) := ⟨[], p, hp, by simp⟩
    exact ⟨iff_of_true hs (by simp [Operation.usesRecord, hn]), fun _ => by simp [step, hp]⟩
  | addUserItems =>
    cases hc : p.currentUser with
    | none =>
      have hp : p.perform .addUserItems = none := by simp [Process.perform, hc]
      have hs : ¬ Sound p (.operation .addUserItems) := by
        rintro ⟨a, p', he, -⟩
        rw [hp] at he
        cases he
      exact ⟨iff_of_false hs (by simp [Operation.usesRecord]), fun h => (hs h).elim⟩
    | some uid =>
      have hp : p.perform .addUserItems =
          some ([.setValue uid OnlineRepository.addUserItems], p) := by
        simp [Process.perform, hc]
      have hs : Sound p (.operation .addUserItems) := ⟨_, _, hp, by simp [Access.uid, hc]⟩
      exact ⟨iff_of_true hs (by simp), fun _ => by simp [step, hp]⟩
  | _ => cases h

/-- An operation that uses the file-level `user` is sound iff an account is signed in and `user`
is not initialised with another one. It leaves `user` initialised with this account. -/
theorem sound_of_usesUser {op : Operation} (h : op.usesUser = true) (p : Process) :
    (Sound p (.operation op) ↔
      p.currentUser ≠ none ∧ ∀ u, p.user = some u → p.currentUser = u) ∧
      (Sound p (.operation op) →
        step p (.operation op) = some { p with user := some p.currentUser }) := by
  obtain ⟨paths, hne, huid, hp⟩ := perform_of_usesUser h
  have hs : Sound p (.operation op) ↔ ∃ uid, p.currentUser = some uid ∧
      p.user.getD p.currentUser = some uid := by
    constructor
    · rintro ⟨accesses, p', he, hall⟩
      rw [hp, Option.map_eq_some_iff] at he
      obtain ⟨⟨uid, q⟩, hf, he⟩ := he
      cases he
      obtain ⟨a, ha⟩ := List.exists_mem_of_ne_nil _ (hne uid)
      have hc := hall a ha
      rw [huid uid a ha] at hc
      exact ⟨uid, hc, (forceUser_eq_some.mp hf).1⟩
    · rintro ⟨uid, hc, hu⟩
      have hf := forceUser_eq_some.mpr ⟨hu, rfl⟩
      exact ⟨paths uid, _, by rw [hp, hf]; rfl, fun a ha => by rw [hc, huid uid a ha]⟩
  refine ⟨hs.trans ?_, fun h => ?_⟩
  · cases hu : p.user with
    | none => simp [Option.ne_none_iff_exists']
    | some u => cases hc : p.currentUser <;> simp [eq_comm]
  · obtain ⟨uid, hc, hu⟩ := hs.mp h
    have hf := forceUser_eq_some.mpr ⟨hu, rfl⟩
    simp [step, hp, hf, hc]

/-! ## Runs -/

theorem fits_cons_of_not_usesUser {op : Operation} (h : op.usesUser = false)
    {user : Option (Option Uid)} {account : Option Uid} {ops : List (Option Uid × Operation)} :
    Fits user ((account, op) :: ops) ↔ (op.usesRecord = true → account ≠ none) ∧ Fits user ops := by
  constructor
  · intro hf
    refine ⟨hf.signedIn (account, op) List.mem_cons_self, ⟨?_, ?_⟩, ?_⟩
    · exact fun x hx => hf.signedIn x (List.mem_cons_of_mem _ hx)
    · exact fun x hx y hy => hf.same x (List.mem_cons_of_mem _ hx) y (List.mem_cons_of_mem _ hy)
    · exact fun x hx => hf.first x (List.mem_cons_of_mem _ hx)
  · rintro ⟨hacc, hf⟩
    have hcons : ∀ x ∈ (account, op) :: ops, x.2.usesUser = true → x ∈ ops := by
      intro x hx hu
      rcases List.mem_cons.mp hx with rfl | hx
      · rw [h] at hu; cases hu
      · exact hx
    refine ⟨⟨?_, ?_⟩, ?_⟩
    · intro x hx
      rcases List.mem_cons.mp hx with rfl | hx
      · exact hacc
      · exact hf.signedIn x hx
    · exact fun x hx y hy hux huy => hf.same x (hcons x hx hux) y (hcons y hy huy) hux huy
    · exact fun x hx hu => hf.first x (hcons x hx hu) hu

theorem usesRecord_of_usesUser {op : Operation} (h : op.usesUser = true) :
    op.usesRecord = true := by
  cases op <;> first | exact h | cases h

theorem fits_cons_of_usesUser {op : Operation} (h : op.usesUser = true)
    {user : Option (Option Uid)} {account : Option Uid} {ops : List (Option Uid × Operation)} :
    Fits user ((account, op) :: ops) ↔
      (account ≠ none ∧ ∀ u, user = some u → account = u) ∧ Fits (some account) ops := by
  constructor
  · intro hf
    refine ⟨⟨hf.signedIn (account, op) List.mem_cons_self (usesRecord_of_usesUser h),
      hf.first (account, op) List.mem_cons_self h⟩, ⟨?_, ?_⟩, ?_⟩
    · exact fun x hx => hf.signedIn x (List.mem_cons_of_mem _ hx)
    · exact fun x hx y hy => hf.same x (List.mem_cons_of_mem _ hx) y (List.mem_cons_of_mem _ hy)
    · rintro x hx hu _ ⟨⟩
      exact hf.same x (List.mem_cons_of_mem _ hx) _ List.mem_cons_self hu h
  · rintro ⟨⟨hacc, hfirst⟩, hf⟩
    have hall : ∀ x ∈ (account, op) :: ops, x.2.usesUser = true → x.1 = account := by
      intro x hx hu
      rcases List.mem_cons.mp hx with rfl | hx
      · rfl
      · exact hf.first x hx hu _ rfl
    refine ⟨⟨?_, ?_⟩, ?_⟩
    · intro x hx
      rcases List.mem_cons.mp hx with rfl | hx
      · exact fun _ => hacc
      · exact hf.signedIn x hx
    · exact fun x hx y hy hux huy => (hall x hx hux).trans (hall y hy huy).symm
    · exact fun x hx hu u huser => (hall x hx hu).trans (hfirst u huser)

/-- Every event of a run is sound iff the accounts fit the file-level `user` at its start. -/
theorem sound_steps_iff (es : List Event) (p : Process) :
    (∀ x ∈ Machine.steps step p es, Sound x.1 x.2) ↔ Fits p.user (operations p.currentUser es) := by
  induction es generalizing p with
  | nil =>
    refine iff_of_true (by simp) ⟨⟨?_, ?_⟩, ?_⟩ <;> simp [operations]
  | cons e es ih =>
    rw [Machine.steps, List.forall_mem_cons]
    cases e with
    | operation op =>
      rw [operations]
      cases hu : op.usesUser with
      | false =>
        obtain ⟨hs, hstep⟩ := sound_of_not_usesUser hu p
        rw [fits_cons_of_not_usesUser hu, ← hs]
        refine and_congr_right fun h => ?_
        rw [hstep h, Option.elim_some, ih]
      | true =>
        obtain ⟨hs, hstep⟩ := sound_of_usesUser hu p
        rw [fits_cons_of_usesUser hu, ← hs]
        refine and_congr_right fun h => ?_
        rw [hstep h, Option.elim_some, ih]
    | _ =>
      -- The events of the authentication service are sound and change only the account.
      simp only [Sound, step, Option.elim_some, true_and, operations]
      exact ih _

/-- For every run of a process: each operation unwraps a user and uses only the record of the
account that is signed in iff each is under a signed-in account, and all that use the file-level
`user` are under the same one. -/
theorem account_isolation_iff (account : Option Uid) (es : List Event) :
    (∀ x ∈ Machine.steps step (Process.launch account) es, Sound x.1 x.2) ↔
      OneAccount (operations account es) :=
  (sound_steps_iff es _).trans fits_none

/-- Account A signs in, the container screen checks its profile, the menu's Exit signs out, and
account B signs in: the container screen of B reads the record of A. -/
theorem not_account_isolation_second_account :
    ¬ ∀ x ∈ Machine.steps step (Process.launch none)
      [ .signInUser (some (Str.of "A")), .operation .isUserProfileEmpty, .exit true,
        .signInUser (some (Str.of "B")), .operation .isUserProfileEmpty ], Sound x.1 x.2 := by
  intro h
  have hs := h ({ currentUser := some (Str.of "B"), user := some (some (Str.of "A")) },
    .operation .isUserProfileEmpty) (by decide)
  obtain ⟨_, _, he, hall⟩ := hs
  cases he
  exact absurd (hall (.observe (Str.of "A")) (by decide)) (by decide)

end Session
end MyNews
