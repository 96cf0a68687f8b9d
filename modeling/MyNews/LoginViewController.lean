import MyNews.Session
import MyNews.SignUpViewController

/-!
# `LoginViewController` and the way into the container

Login is the first screen of the navigation stack. The segues `SignInSucces` and `signUpDone` push a
container, whose `viewDidLoad` checks the profile and so uses the file-level `user`; the menu's Exit
signs out and pops down to Login. Nothing disables a button while a call is in flight, so several
sign-ins and sign-ups can be under way at once, and a container can be pushed over another one.

The auth service makes an account the current user when it answers; the completion of the call runs
later. A screen that is popped stays alive, since its closures hold it; a segue from it pushes
nothing. A run ends where a `user!` fails; what else can trap is left to the modules of the screens.

* `Entered.step`: the file-level `user` is the account that was signed in when the first container
  was entered.
* `user_of_first_entry`: so `user!` never fails but in `addUserItems`, which asks the auth service.
* `operation_of_first_entry`: every operation of every container uses the record of that account.
-/

namespace MyNews

structure LoginViewController where
  eMail : Str
  password : Str
  /-- The borders of the text fields are red. -/
  marked : Bool
  toasts : List Str

namespace LoginViewController

/-- `viewWillAppear`. -/
def viewWillAppear (c : LoginViewController) : LoginViewController :=
  { c with password := [], marked := false }

/-- `badAuth`. -/
def badAuth (c : LoginViewController) : LoginViewController :=
  { c with password := [], marked := true, toasts := c.toasts ++ [Str.of "Bad password or login"] }

end LoginViewController

/-- A screen over Login. The screens of a kind are numbered in the order in which they load. -/
inductive Pushed where
  | signUp (screen : Nat)
  | container (screen : Nat)
  deriving DecidableEq

/-- The screens of a process up to the containers, with the calls of the auth service. -/
structure Flow where
  process : Session.Process
  login : LoginViewController
  /-- The screens over Login; the last one is on top. -/
  stack : List Pushed
  /-- The number of sign-up screens that have loaded. -/
  signUps : Nat
  /-- For each container that has loaded, the account that was signed in. -/
  entries : List (Option Session.Uid)
  /-- The calls of `signInUser` that are not answered. -/
  signingIn : List Credentials
  /-- The calls that are answered and whose completions have not run. -/
  signedIn : List Bool
  /-- The calls of `createUser` that are not answered, each with its sign-up screen. -/
  creating : List Nat
  created : List (Nat × Bool)
  /-- The calls of `addUserItems` that are not answered. -/
  adding : List Nat
  /-- A `user!` has failed. -/
  unwrapFailed : Bool

namespace Flow

open Session

/-- The process after its start. -/
def launch (currentUser : Option Uid) : Flow where
  process := .launch currentUser
  login := { eMail := [], password := [], marked := false, toasts := [] }
  stack := []
  signUps := 0
  entries := []
  signingIn := []
  signedIn := []
  creating := []
  created := []
  adding := []
  unwrapFailed := false

/-- A container is pushed, and its `viewDidLoad` checks the profile. -/
def enter (f : Flow) : Flow :=
  let f' := { f with
    stack := f.stack ++ [Pushed.container f.entries.length]
    entries := f.entries ++ [f.process.currentUser] }
  match f.process.perform .isUserProfileEmpty with
  | some (_, process) => { f' with process }
  | none => { f' with unwrapFailed := true }

/-- The closure `viewModel.successCreateUser` of a sign-up screen. -/
def successCreateUser (f : Flow) (screen : Nat) : Flow :=
  match f.process.perform .addUserItems with
  | some (_, process) => { f with process, adding := f.adding ++ [screen] }
  | none => { f with unwrapFailed := true }

/-- The closure `viewModel.successAddUserItems` of a sign-up screen. -/
def successAddUserItems (f : Flow) (screen : Nat) : Flow :=
  if Pushed.signUp screen ∈ f.stack then f.enter else f

/-- Exit of a container, when `signOut` has not thrown; a popped container has no
`navigationController`. -/
def popToLogin (f : Flow) (screen : Nat) : Flow :=
  if Pushed.container screen ∈ f.stack then
    { f with stack := [], login := f.login.viewWillAppear }
  else f

/-- What happens in the process. -/
inductive Event where
  /-- The user edits the text fields of Login. -/
  | edit (eMail password : Str)
  | signInButton
  | signUpButton
  /-- The user taps Next of the sign-up screen on top. -/
  | next (email password confirmPassword : Str)
  /-- The user taps the back button of the sign-up screen on top. -/
  | back
  | signInAnswered (call : Credentials) (response : Option Uid)
  /-- The completion of an answered call of `signInUser` runs. -/
  | signInCompletion (isSignIn : Bool)
  | createUserAnswered (screen : Nat) (response : Option Uid)
  | createUserCompletion (screen : Nat) (isCreated : Bool)
  | addUserItemsAnswered (screen : Nat) (isSuccess : Bool)
  /-- An operation of a container or of a screen over it. -/
  | operation (op : Operation)
  /-- Exit of the menu of a container. -/
  | exit (screen : Nat) (signedOut : Bool)

/-- The account that is signed in after an answer of the auth service. -/
def signIn (f : Flow) (response : Option Uid) : Flow :=
  { f with process := { f.process with currentUser := response.or f.process.currentUser } }

/-- The process after the event, if no `user!` has failed. -/
def act (f : Flow) : Event → Option Flow
  | .edit eMail password =>
    if f.stack = [] then some { f with login := { f.login with eMail, password } } else none
  | .signInButton =>
    if f.stack = [] then
      some { f with signingIn := f.signingIn ++ [⟨f.login.eMail, f.login.password⟩] }
    else none
  | .signUpButton =>
    if f.stack = [] then some { f with stack := [.signUp f.signUps], signUps := f.signUps + 1 }
    else none
  | .next _ password confirmPassword =>
    match f.stack.getLast? with
    | some (.signUp screen) =>
      some (if password ≠ confirmPassword then f else { f with creating := f.creating ++ [screen] })
    | _ => none
  | .back =>
    match f.stack.getLast? with
    | some (.signUp _) =>
      let stack := f.stack.dropLast
      some { f with stack, login := if stack = [] then f.login.viewWillAppear else f.login }
    | _ => none
  | .signInAnswered call response =>
    if call ∈ f.signingIn then
      some { f.signIn response with
        signingIn := f.signingIn.erase call, signedIn := f.signedIn ++ [response.isSome] }
    else none
  | .signInCompletion isSignIn =>
    if isSignIn ∈ f.signedIn then
      let f := { f with signedIn := f.signedIn.erase isSignIn }
      some (if isSignIn then f.enter else { f with login := f.login.badAuth })
    else none
  | .createUserAnswered screen response =>
    if screen ∈ f.creating then
      some { f.signIn response with
        creating := f.creating.erase screen
        created := f.created ++ [(screen, response.isSome)] }
    else none
  | .createUserCompletion screen isCreated =>
    if (screen, isCreated) ∈ f.created then
      let f := { f with created := f.created.erase (screen, isCreated) }
      some (if isCreated then f.successCreateUser screen else f)
    else none
  | .addUserItemsAnswered screen isSuccess =>
    if screen ∈ f.adding then
      let f := { f with adding := f.adding.erase screen }
      some (if isSuccess then f.successAddUserItems screen else f)
    else none
  | .operation op =>
    if f.entries ≠ [] ∧ op ≠ .addUserItems then
      match f.process.perform op with
      | some (_, process) => some { f with process }
      | none => some { f with unwrapFailed := true }
    else none
  | .exit screen signedOut =>
    if screen < f.entries.length then
      some (if signedOut then
        { f with process := { f.process with currentUser := none } }.popToLogin screen
      else f)
    else none

/-- The process after the event; `none` if the event cannot happen. -/
def step (f : Flow) (e : Event) : Option Flow := if f.unwrapFailed = false then f.act e else none

/-! ## The file-level `user` -/

/-- A call has succeeded, and a container can follow. -/
def Succeeded (f : Flow) : Prop :=
  true ∈ f.signedIn ∨ (∃ screen, (screen, true) ∈ f.created) ∨ f.adding ≠ []

/-- The file-level `user` is the account that was signed in when the first container was entered.
Before, nobody can sign out, so an account is signed in once a call has succeeded. -/
structure Entered (f : Flow) : Prop where
  user : f.process.user = f.entries.head?
  head : f.entries.head? ≠ some none
  signedIn : f.entries = [] → Succeeded f → f.process.currentUser ≠ none

theorem Entered.congr {f : Flow} (h : Entered f) (f' : Flow)
    (huser : f'.process.user = f.process.user) (hentries : f'.entries = f.entries)
    (hsignedIn : f.entries = [] → Succeeded f' → f'.process.currentUser ≠ none ∨
      Succeeded f ∧ f'.process.currentUser = f.process.currentUser) : Entered f' := by
  refine ⟨by rw [huser, hentries]; exact h.user, by rw [hentries]; exact h.head, fun he hs => ?_⟩
  rw [hentries] at he
  rcases hsignedIn he hs with hcurrent | ⟨hs, hcurrent⟩
  · exact hcurrent
  · rw [hcurrent]; exact h.signedIn he hs

/-- An event that leaves the process and brings no success. -/
theorem Entered.frame {f : Flow} (h : Entered f) (f' : Flow) (hprocess : f'.process = f.process)
    (hentries : f'.entries = f.entries) (hs : Succeeded f' → Succeeded f) : Entered f' :=
  h.congr f' (by rw [hprocess]) hentries fun _ hs' => .inr ⟨hs hs', by rw [hprocess]⟩

/-- Once a container was entered there is an account to unwrap. -/
theorem Entered.exists_uid {f : Flow} (h : Entered f) (hne : f.entries ≠ []) :
    ∃ uid, f.entries.head? = some (some uid) ∧ f.process.user = some (some uid) := by
  obtain ⟨account, entries, he⟩ := List.exists_cons_of_ne_nil hne
  have huser := h.user
  have hhead := h.head
  rw [he, List.head?_cons] at huser hhead ⊢
  obtain ⟨uid, rfl⟩ := Option.ne_none_iff_exists'.mp fun h0 : account = none => hhead (by rw [h0])
  exact ⟨uid, rfl, huser⟩

/-- An operation under a file-level `user` succeeds, with the record of this account. -/
theorem perform_of_user {p : Process} {uid : Uid} (hu : p.user = some (some uid)) {op : Operation}
    (hop : op ≠ .addUserItems) :
    ∃ accesses, p.perform op = some (accesses, p) ∧ ∀ a ∈ accesses, a.uid = uid := by
  cases huses : op.usesUser with
  | true =>
    obtain ⟨paths, -, huid, hperform⟩ := perform_of_usesUser huses
    have hforce : p.forceUser = some (uid, p) :=
      forceUser_eq_some.mpr ⟨by rw [hu]; rfl, by rw [← hu]⟩
    exact ⟨paths uid, by rw [hperform, hforce]; rfl, huid uid⟩
  | false =>
    cases op with
    | handleDismis form =>
      have hnone : ProfileViewController.handleDismis form = none := by
        simpa [Operation.usesUser, Operation.usesRecord] using huses
      exact ⟨[], by simp [Process.perform, hnone], by simp⟩
    | addUserItems => exact (hop rfl).elim
    | _ => cases huses

/-- The check of a container that is entered under an account, or after another one. -/
theorem Entered.perform {f : Flow} (h : Entered f)
    (hfirst : f.entries = [] → f.process.currentUser ≠ none) :
    ∃ accesses uid, (f.entries ++ [f.process.currentUser]).head? = some (some uid) ∧
      f.process.perform .isUserProfileEmpty =
        some (accesses, { f.process with user := some (some uid) }) := by
  by_cases he : f.entries = []
  · obtain ⟨uid, hcurrent⟩ := Option.ne_none_iff_exists'.mp (hfirst he)
    have huser : f.process.user = none := by rw [h.user, he]; rfl
    refine ⟨[.observe uid], uid, by rw [he, hcurrent]; rfl, ?_⟩
    simp [Process.perform, Process.observe, Process.forceUser, huser, hcurrent]
  · obtain ⟨uid, hhead, huser⟩ := h.exists_uid he
    obtain ⟨accesses, hperform, -⟩ :=
      perform_of_user huser (Operation.noConfusion : Operation.isUserProfileEmpty ≠ .addUserItems)
    refine ⟨accesses, uid, by rw [List.head?_append, hhead]; rfl, ?_⟩
    rw [hperform, ← huser]

theorem Entered.enter {f : Flow} (h : Entered f)
    (hfirst : f.entries = [] → f.process.currentUser ≠ none) :
    Entered f.enter ∧ f.enter.unwrapFailed = f.unwrapFailed := by
  obtain ⟨accesses, uid, hhead, hperform⟩ := h.perform hfirst
  rw [Flow.enter, hperform]
  refine ⟨⟨hhead.symm, ?_, fun he => ?_⟩, rfl⟩
  · show (f.entries ++ [f.process.currentUser]).head? ≠ some none
    rw [hhead]
    simp
  · exact absurd he (by simp)

/-- The answers of the auth service: a success makes its account the current user. -/
theorem Entered.answered {f : Flow} (h : Entered f) (f' : Flow) (response : Option Uid)
    (hprocess : f'.process = (f.signIn response).process) (hentries : f'.entries = f.entries)
    (hs : response = none → Succeeded f' → Succeeded f) : Entered f' := by
  refine h.congr f' (by rw [hprocess]; rfl) hentries fun _ hs' => ?_
  rw [hprocess]
  cases response with
  | some uid => exact .inl (by simp [signIn])
  | none => exact .inr ⟨hs rfl hs', rfl⟩

theorem Entered.successCreateUser {f : Flow} (h : Entered f) (screen : Nat) :
    Entered (f.successCreateUser screen) ∧ ((f.successCreateUser screen).unwrapFailed = true ↔
      f.unwrapFailed = true ∨ f.process.currentUser = none) := by
  cases hcurrent : f.process.currentUser with
  | none =>
    have hperform : f.process.perform .addUserItems = none := by simp [Process.perform, hcurrent]
    rw [Flow.successCreateUser, hperform]
    exact ⟨h.frame _ rfl rfl id, by simp⟩
  | some uid =>
    have hperform : f.process.perform .addUserItems =
        some ([.setValue uid OnlineRepository.addUserItems], f.process) := by
      simp [Process.perform, hcurrent]
    rw [Flow.successCreateUser, hperform]
    exact ⟨h.congr _ rfl rfl fun _ _ => .inl (by simp [hcurrent]), by simp⟩

theorem Entered.popToLogin {f : Flow} (h : Entered f) (screen : Nat) :
    Entered (f.popToLogin screen) ∧ (f.popToLogin screen).unwrapFailed = f.unwrapFailed := by
  unfold Flow.popToLogin
  split
  · exact ⟨h.frame _ rfl rfl id, rfl⟩
  · exact ⟨h, rfl⟩

theorem Entered.successAddUserItems {f : Flow} (h : Entered f) (screen : Nat)
    (hfirst : f.entries = [] → f.process.currentUser ≠ none) :
    Entered (f.successAddUserItems screen) ∧
      (f.successAddUserItems screen).unwrapFailed = f.unwrapFailed := by
  unfold Flow.successAddUserItems
  split
  · exact h.enter hfirst
  · exact ⟨h, rfl⟩

/-- Any event but the completion of a sign-up that has succeeded. -/
theorem Entered.act_other {f f' : Flow} (h : Entered f) {e : Event} (hact : f.act e = some f')
    (he : ∀ screen, e ≠ .createUserCompletion screen true) :
    Entered f' ∧ f'.unwrapFailed = f.unwrapFailed := by
  cases e with
  | signInAnswered call response =>
    simp only [act] at hact
    split at hact
    · cases hact
      refine ⟨h.answered _ response rfl rfl fun hr hs => ?_, rfl⟩
      simpa [Succeeded, signIn, hr] using hs
    · cases hact
  | signInCompletion isSignIn =>
    simp only [act] at hact
    split at hact
    · rename_i hm
      have hframe : Entered { f with signedIn := f.signedIn.erase isSignIn } :=
        h.frame _ rfl rfl (Or.imp_left List.mem_of_mem_erase)
      cases isSignIn with
      | false => cases hact; exact ⟨hframe.frame _ rfl rfl id, rfl⟩
      | true => cases hact; exact hframe.enter fun hentries => h.signedIn hentries (.inl hm)
    · cases hact
  | createUserAnswered screen response =>
    simp only [act] at hact
    split at hact
    · cases hact
      refine ⟨h.answered _ response rfl rfl fun hr hs => ?_, rfl⟩
      simpa [Succeeded, signIn, hr] using hs
    · cases hact
  | createUserCompletion screen isCreated =>
    simp only [act] at hact
    split at hact
    · cases isCreated with
      | false =>
        cases hact
        exact ⟨h.frame _ rfl rfl (Or.imp_right (Or.imp_left fun ⟨j, hj⟩ =>
          ⟨j, List.mem_of_mem_erase hj⟩)), rfl⟩
      | true => exact (he screen rfl).elim
    · cases hact
  | addUserItemsAnswered screen isSuccess =>
    simp only [act] at hact
    split at hact
    · rename_i hm
      have hne : f.adding ≠ [] := List.ne_nil_of_mem hm
      have hframe : Entered { f with adding := f.adding.erase screen } :=
        h.frame _ rfl rfl (Or.imp_right (Or.imp_right fun _ => hne))
      cases isSuccess with
      | false => cases hact; exact ⟨hframe, rfl⟩
      | true =>
        cases hact
        exact hframe.successAddUserItems screen fun hentries =>
          h.signedIn hentries (.inr (.inr hne))
    · cases hact
  | operation op =>
    simp only [act] at hact
    split at hact
    · rename_i hop
      obtain ⟨uid, -, huser⟩ := h.exists_uid hop.1
      obtain ⟨accesses, hperform, -⟩ := perform_of_user huser hop.2
      rw [hperform] at hact
      cases hact
      exact ⟨h.frame _ rfl rfl id, rfl⟩
    · cases hact
  | exit screen signedOut =>
    simp only [act] at hact
    split at hact
    · rename_i hscreen
      have hne : f.entries ≠ [] := List.ne_nil_of_length_pos (by omega)
      cases signedOut with
      | false => cases hact; exact ⟨h, rfl⟩
      | true =>
        cases hact
        have hout : Entered { f with process := { f.process with currentUser := none } } :=
          h.congr _ rfl rfl fun hentries => (hne hentries).elim
        exact hout.popToLogin screen
    · cases hact
  | next email password confirmPassword =>
    simp only [act] at hact
    split at hact
    · cases hact
      split
      · exact ⟨h, rfl⟩
      · exact ⟨h.frame _ rfl rfl id, rfl⟩
    · cases hact
  | _ =>
    -- The other taps leave the calls that have succeeded.
    simp only [act] at hact
    split at hact
    · cases hact; exact ⟨h.frame _ rfl rfl id, rfl⟩
    · cases hact

/-- A step keeps `Entered`, and a `user!` fails in it iff it is the completion of a sign-up that has
succeeded, while nobody is signed in. -/
theorem Entered.step {f f' : Flow} (h : Entered f) {e : Event} (hstep : Flow.step f e = some f') :
    Entered f' ∧ (f'.unwrapFailed = true ↔
      (∃ screen, e = .createUserCompletion screen true) ∧ f.process.currentUser = none) := by
  simp only [Flow.step] at hstep
  split at hstep
  · rename_i ht
    by_cases he : ∃ screen, e = .createUserCompletion screen true
    · obtain ⟨screen, rfl⟩ := he
      simp only [act, ↓reduceIte] at hstep
      split at hstep
      · cases hstep
        have hframe : Entered { f with created := f.created.erase (screen, true) } :=
          h.frame _ rfl rfl (Or.imp_right (Or.imp_left fun ⟨j, hj⟩ =>
            ⟨j, List.mem_of_mem_erase hj⟩))
        obtain ⟨hentered, hfailed⟩ := hframe.successCreateUser screen
        refine ⟨hentered, hfailed.trans ?_⟩
        simp [ht]
      · cases hstep
    · obtain ⟨hentered, hfailed⟩ := h.act_other hstep fun screen h0 => he ⟨screen, h0⟩
      exact ⟨hentered, by simp [hfailed, ht, he]⟩
  · cases hstep

theorem entered_run {account : Option Uid} {es : List Event} {t : Flow}
    (hrun : Machine.run Flow.step (launch account) es = some t) : Entered t :=
  Machine.run_invariant (fun _ _ _ _ hi hs => (Entered.step hi hs).1) hrun
    ⟨rfl, by simp [launch], fun _ hs => by simp [Succeeded, launch] at hs⟩

/-- For every run of a process, with any sign-ins and sign-ups under way at once: the file-level
`user` is the account that was signed in when the first container was entered, and it is not `nil`;
and a `user!` fails only in the completion of a sign-up that has succeeded, when this runs while
nobody is signed in. -/
theorem user_of_first_entry {account : Option Uid} {es : List Event} {t : Flow}
    (hrun : Machine.run step (launch account) es = some t) :
    t.process.user = t.entries.head? ∧ t.entries.head? ≠ some none ∧
      (t.unwrapFailed = true ↔ ∃ pre screen s, es = pre ++ [.createUserCompletion screen true] ∧
        Machine.run step (launch account) pre = some s ∧ s.process.currentUser = none) := by
  refine ⟨(entered_run hrun).user, (entered_run hrun).head, ?_⟩
  constructor
  · intro ht
    rcases List.eq_nil_or_concat' es with rfl | ⟨pre, e, rfl⟩
    · cases hrun; cases ht
    · obtain ⟨s, hs, hstep⟩ := Machine.run_concat_eq_some.mp hrun
      obtain ⟨⟨screen, rfl⟩, hcurrent⟩ := ((entered_run hs).step hstep).2.mp ht
      exact ⟨pre, screen, s, rfl, hs, hcurrent⟩
  · rintro ⟨pre, screen, s, rfl, hs, hcurrent⟩
    obtain ⟨s', hs', hstep⟩ := Machine.run_concat_eq_some.mp hrun
    rw [hs, Option.some.injEq] at hs'
    subst hs'
    exact ((entered_run hs).step hstep).2.mpr ⟨⟨screen, rfl⟩, hcurrent⟩

/-- Ann signs in and exits; then nobody is signed in, and Bob signs in. -/
def reentering : List Event :=
  [.edit (Str.of "ann@mail.com") (Str.of "secret"), .signInButton,
    .signInAnswered ⟨Str.of "ann@mail.com", Str.of "secret"⟩ (some (Str.of "ann")),
    .signInCompletion true, .exit 0 true, .edit (Str.of "bob@mail.com") (Str.of "hidden"),
    .signInButton, .signInAnswered ⟨Str.of "bob@mail.com", Str.of "hidden"⟩ (some (Str.of "bob")),
    .signInCompletion true]

theorem user_of_first_entry_reentering :
    ∃ t, Machine.run step (launch none) reentering = some t ∧
      t.process.user = t.entries.head? ∧ t.entries.head? ≠ some none ∧
      (t.unwrapFailed = true ↔ ∃ pre screen s,
        reentering = pre ++ [.createUserCompletion screen true] ∧
        Machine.run step (launch none) pre = some s ∧ s.process.currentUser = none) :=
  ⟨_, rfl, @user_of_first_entry none reentering _ rfl⟩

/-- For every run of a process in which a container was entered: no `user!` of an operation of a
container or of a screen over it fails, each uses the record of the account that was signed in at
the first entry, and it is the record of the account that is signed in now iff this is the same
account. -/
theorem operation_of_first_entry {account : Option Uid} {es : List Event} {t : Flow}
    (hrun : Machine.run step (launch account) es = some t) (hentered : t.entries ≠ [])
    {op : Operation} (hop : op ≠ .addUserItems) :
    ∃ uid accesses, t.entries.head? = some (some uid) ∧
      t.process.perform op = some (accesses, t.process) ∧ (∀ a ∈ accesses, a.uid = uid) ∧
      (op.usesUser = true →
        (Sound t.process (.operation op) ↔ t.process.currentUser = some uid)) := by
  obtain ⟨uid, hhead, huser⟩ := (entered_run hrun).exists_uid hentered
  obtain ⟨accesses, hperform, huid⟩ := perform_of_user huser hop
  refine ⟨uid, accesses, hhead, hperform, huid, fun huses => ?_⟩
  rw [(sound_of_usesUser huses t.process).1, huser]
  constructor
  · rintro ⟨-, h⟩
    exact h _ rfl
  · intro hcurrent
    exact ⟨by simp [hcurrent], fun u hu => hcurrent.trans (Option.some.inj hu)⟩

theorem operation_of_first_entry_reentering :
    ∃ t, Machine.run step (launch none) reentering = some t ∧
      ∃ uid accesses, t.entries.head? = some (some uid) ∧
        t.process.perform .isUserProfileEmpty = some (accesses, t.process) ∧
        (∀ a ∈ accesses, a.uid = uid) ∧ ((Operation.isUserProfileEmpty).usesUser = true →
          (Sound t.process (.operation .isUserProfileEmpty) ↔
            t.process.currentUser = some uid)) := by
  refine ⟨_, rfl, ?_⟩
  exact @operation_of_first_entry none reentering _ rfl (List.cons_ne_nil _ _) .isUserProfileEmpty
    Operation.noConfusion

end Flow
end MyNews
