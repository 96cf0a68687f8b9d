import MyNews.App.Convergence
import MyNews.Lib.Decision

/-!
# The devices of an account

Any number of devices that are signed in to one account, each with the app of `App`, and the server
with the record. A device joins with the record that the server has then.

Each device has a connection to the server, which receives the writes that are sent over it in order
and decides on each once. It sends its decisions to all devices; each receives them in the order of
the server, some time later: the answer to a write that it has sent over its connection, and the
change that any other accepted write makes. A connection can end at any time. The client then
connects again, observes the record again, and sends again all that is not answered: so the server
can decide on a write once for each connection over which it was sent. `Connected` is the assumption
that the connection of a device does not end.

* `App.makes`, `App.node_local`: the writes that an event of the app makes.
* `StepTo`, `step_to`: what a step can do.
* `Linked`: what holds between a device and its connection.
* `devices_consistent`: the copy of each device is the record after some of the decisions; each of
  its writes is pending or was answered, in order; and on each connection no write is decided twice
  or overtaken.
* `Ran`, `allRan_run`: each device has a run of `App`, so all that is proved of these runs holds.
* `devices_converge`: once nothing is on the way to or from the devices, they show the same.
* `devices_always_ask`: the completeness checks of a registered account.
-/

namespace MyNews

open OnlineRepository
open ProfileViewController (newYear2020)

namespace App

/-- The event is one of the device, not of the server. -/
def Event.isLocal : Event → Bool
  | answer _ | remote _ => false
  | _ => true

/-- The writes that the event makes. -/
def makes (a : App) : Event → List Pending
  | .profile k .save =>
    match a.profiles[k]? with
    | some c => ((ProfileViewController.handleDismis c.form).getD []).map (⟨·, none⟩)
    | none => []
  | .sources k .done =>
    match a.sources[k]? with
    | some c => [⟨c.handleDismis, some k⟩]
    | none => []
  | _ => []

theorem node_local {a a' : App} {e : Event} (h : step a e = some a') (he : e.isLocal = true) :
    a'.node = { a.node with pending := a.node.pending ++ a.makes e } := by
  have hsame : ∀ b : App, b.node = a.node → a.makes e = [] →
      b.node = { a.node with pending := a.node.pending ++ a.makes e } := by
    intro b hb hm
    rw [hb, hm, List.append_nil]
  cases (step_to h).2 with
  | answer accepted node write hp hn => cases he
  | saveAnswered accepted node write screen hp hn => cases he
  | remote w => cases he
  | receive i o value bus hd => exact hsame _ (node_receive _ _ _) rfl
  | newsRow row hp hr => exact hsame _ (node_present _ _) rfl
  | completion toggle menuOption menu hexit hs =>
    refine hsame _ ?_ rfl
    unfold selectMenuOption
    split
    · exact node_present _ _
    · exact node_present _ _
    · rfl
  | profile screen e c c' hc hs hopen hopen' =>
    cases e with
    | save =>
      have hsave := (profile_save hs).2
      cases hw : ProfileViewController.handleDismis c.form with
      | none => exact hsame _ rfl (by simp [makes, hc, hw])
      | some writes =>
        rw [hw] at hsave
        rw [hsave] at hopen'
        cases hopen'
    | _ => exact hsame _ rfl rfl
  | save screen c writes hc hopen hw =>
    simp only [App.dismiss, node_setValues]
    simp [makes, hc, hw]
  | sources screen e c c' he hc hs =>
    cases e with
    | done =>
      have hmakes : a.makes (.sources screen .done) = [⟨c'.handleDismis, some screen⟩] := by
        simp [makes, hc, handleDismis_done hs]
      rw [hmakes]
      rfl
    | allSources response =>
      refine hsame _ ?_ rfl
      simp only [sourcesAction]
      split <;> rfl
    | _ => exact hsame _ rfl rfl
  | _ => exact hsame _ rfl rfl

theorem node_answer {a a' : App} {accepted : Bool} (h : step a (.answer accepted) = some a') :
    a.node.answer Pending.apply accepted = some a'.node := by
  cases (step_to h).2 with
  | answer _ node write hp hn => exact hn
  | saveAnswered _ node write screen hp hn => rw [node_saveAnswered]; exact hn

theorem node_remote {a a' : App} {w : Write} (h : step a (.remote w) = some a') :
    a'.node = { a.node with server := w.apply a.node.server } := by
  cases (step_to h).2 with
  | remote => rfl

end App

/-! ## The devices -/

/-- A device with the container on its screen. -/
structure Device where
  app : App
  /-- The number of its connection. -/
  connection : Nat
  /-- The number of decisions when it began to observe the record over this connection. -/
  listened : Nat
  /-- The number of decisions that it has learnt. -/
  seen : Nat

structure Connection where
  device : Nat
  /-- The writes that were sent over it and are not decided, the oldest first. -/
  inbox : List Pending

structure Devices where
  /-- The record at first. -/
  record : Record
  /-- The decisions of the server, the oldest first. -/
  log : List (Decision Pending)
  /-- The connections, in the order in which they began; those that have ended stay. -/
  connections : List Connection
  devices : List Device

namespace Devices

/-- What happens to the devices and the server. -/
inductive Event where
  /-- A device enters the container. -/
  | enter (today : Date)
  /-- An event of one device. -/
  | act (device : Nat) (e : App.Event)
  /-- The server decides on the oldest write of a connection that is not decided. -/
  | decide (connection : Nat) (accepted : Bool)
  /-- A device receives the next decision, or the record if it observes it anew. -/
  | receive (device : Nat)
  /-- The connection of a device has ended, and the client connects again. -/
  | reconnect (device : Nat)

/-- The record of the server. -/
def server (s : Devices) : Record := Decision.after Pending.apply s.record s.log

/-- The app when it receives the decision `x`. -/
def receive (d : Device) (x : Decision Pending) : Option App :=
  if x.connection = d.connection then App.step d.app (.answer x.accepted)
  else if x.accepted then App.step d.app (.remote x.write.write)
  else some d.app

/-- The devices after the event; `none` if it cannot happen. -/
def step (s : Devices) : Event → Option Devices
  | .enter today =>
    some { s with
      connections := s.connections ++ [⟨s.devices.length, []⟩]
      devices := s.devices ++ [{
        app := App.enter ⟨s.server, []⟩ today
        connection := s.connections.length
        listened := s.log.length
        seen := s.log.length }] }
  | .act i e =>
    match s.devices[i]? with
    | some d =>
      if e.isLocal then
        (App.step d.app e).map fun app => { s with
          connections := s.connections.modify d.connection fun c =>
            { c with inbox := c.inbox ++ d.app.makes e }
          devices := s.devices.set i { d with app } }
      else none
    | none => none
  | .decide c accepted =>
    match s.connections[c]? with
    | some ⟨i, write :: inbox⟩ =>
      some { s with
        log := s.log ++ [⟨i, c, write, accepted⟩]
        connections := s.connections.set c ⟨i, inbox⟩ }
    | _ => none
  | .receive i =>
    match s.devices[i]? with
    | some d =>
      if d.seen < d.listened then
        (App.step d.app (.remote (.record
          (Decision.after Pending.apply s.record (s.log.take d.listened))))).map fun app =>
            { s with devices := s.devices.set i { d with app, seen := d.listened } }
      else
        (s.log[d.seen]?.bind (receive d)).map fun app =>
          { s with devices := s.devices.set i { d with app, seen := d.seen + 1 } }
    | none => none
  | .reconnect i =>
    match s.devices[i]? with
    | some d =>
      some { s with
        connections := s.connections ++ [⟨i, d.app.node.pending⟩]
        devices := s.devices.set i
          { d with connection := s.connections.length, listened := s.log.length } }
    | none => none

/-- What a step can do. -/
inductive StepTo (s : Devices) : Event → Devices → Prop
  | enter (today : Date) :
    StepTo s (.enter today) { s with
      connections := s.connections ++ [⟨s.devices.length, []⟩]
      devices := s.devices ++ [{
        app := App.enter ⟨s.server, []⟩ today
        connection := s.connections.length
        listened := s.log.length
        seen := s.log.length }] }
  | act (i : Nat) (e : App.Event) (d : Device) (app : App) (hd : s.devices[i]? = some d)
    (he : e.isLocal = true) (hs : App.step d.app e = some app) :
    StepTo s (.act i e) { s with
      connections := s.connections.modify d.connection fun c =>
        { c with inbox := c.inbox ++ d.app.makes e }
      devices := s.devices.set i { d with app } }
  | decide (c : Nat) (accepted : Bool) (i : Nat) (write : Pending) (inbox : List Pending)
    (hc : s.connections[c]? = some ⟨i, write :: inbox⟩) :
    StepTo s (.decide c accepted) { s with
      log := s.log ++ [⟨i, c, write, accepted⟩]
      connections := s.connections.set c ⟨i, inbox⟩ }
  | snapshot (i : Nat) (d : Device) (app : App) (hd : s.devices[i]? = some d)
    (hlt : d.seen < d.listened)
    (hs : App.step d.app (.remote (.record
      (Decision.after Pending.apply s.record (s.log.take d.listened)))) = some app) :
    StepTo s (.receive i) { s with devices := s.devices.set i { d with app, seen := d.listened } }
  | receive (i : Nat) (d : Device) (x : Decision Pending) (app : App)
    (hd : s.devices[i]? = some d) (hle : d.listened ≤ d.seen) (hx : s.log[d.seen]? = some x)
    (hs : Devices.receive d x = some app) :
    StepTo s (.receive i) { s with devices := s.devices.set i { d with app, seen := d.seen + 1 } }
  | reconnect (i : Nat) (d : Device) (hd : s.devices[i]? = some d) :
    StepTo s (.reconnect i) { s with
      connections := s.connections ++ [⟨i, d.app.node.pending⟩]
      devices := s.devices.set i
        { d with connection := s.connections.length, listened := s.log.length } }

theorem step_to {s s' : Devices} {e : Event} (h : step s e = some s') : StepTo s e s' := by
  cases e with
  | enter today => cases h; exact .enter today
  | act i e =>
    simp only [step] at h
    split at h
    · rename_i d hd
      split at h
      · rename_i he
        obtain ⟨app, hs, rfl⟩ := Option.map_eq_some_iff.mp h
        exact .act i e d app hd he hs
      · cases h
    · cases h
  | decide c accepted =>
    simp only [step] at h
    split at h
    · rename_i i write inbox hc
      cases h
      exact .decide c accepted i write inbox hc
    · cases h
  | receive i =>
    simp only [step] at h
    split at h
    · rename_i d hd
      split at h
      · rename_i hlt
        obtain ⟨app, hs, rfl⟩ := Option.map_eq_some_iff.mp h
        exact .snapshot i d app hd hlt hs
      · rename_i hle
        obtain ⟨app, hr, rfl⟩ := Option.map_eq_some_iff.mp h
        obtain ⟨x, hx, hs⟩ := Option.bind_eq_some_iff.mp hr
        exact .receive i d x app hd (by omega) hx hs
    · cases h
  | reconnect i =>
    simp only [step] at h
    split at h
    · rename_i d hd
      cases h
      exact .reconnect i d hd
    · cases h

/-! ## The writes of a device -/

/-- The server with the record, and no device. -/
def start (record : Record) : Devices := ⟨record, [], [], []⟩

/-- The writes that the event makes on the device `i`. -/
def makes (i : Nat) (s : Devices) : Event → List Pending
  | .act j e =>
    if j = i then
      match s.devices[i]? with
      | some d => d.app.makes e
      | none => []
    else []
  | _ => []

/-- The write whose answer the device `i` receives with the event. -/
def answers (i : Nat) (s : Devices) : Event → List Pending
  | .receive j =>
    if j = i then
      match s.devices[i]? with
      | some d =>
        if d.seen < d.listened then []
        else Decision.sentOver d.connection s.log[d.seen]?.toList
      | none => []
    else []
  | _ => []

/-- The writes that the device `i` makes in a run, in this order. -/
def made (s : Devices) (es : List Event) (i : Nat) : List Pending :=
  (Machine.steps step s es).flatMap fun x => makes i x.1 x.2

/-- The writes whose answers the device `i` receives in a run, in this order. -/
def answered (s : Devices) (es : List Event) (i : Nat) : List Pending :=
  (Machine.steps step s es).flatMap fun x => answers i x.1 x.2

theorem made_concat {s m : Devices} {es : List Event} (h : Machine.run step s es = some m)
    (e : Event) (i : Nat) : made s (es ++ [e]) i = made s es i ++ makes i m e := by
  simp [made, Machine.steps_concat h]

theorem answered_concat {s m : Devices} {es : List Event} (h : Machine.run step s es = some m)
    (e : Event) (i : Nat) : answered s (es ++ [e]) i = answered s es i ++ answers i m e := by
  simp [answered, Machine.steps_concat h]

theorem makes_act_of_ne {i j : Nat} (h : j ≠ i) (s : Devices) (e : App.Event) :
    makes i s (.act j e) = [] := if_neg h

theorem makes_act {s : Devices} {i : Nat} {d : Device} (hd : s.devices[i]? = some d)
    (e : App.Event) : makes i s (.act i e) = d.app.makes e := by
  simp [makes, hd]

theorem answers_receive_of_ne {i j : Nat} (h : j ≠ i) (s : Devices) :
    answers i s (.receive j) = [] := if_neg h

theorem answers_snapshot {s : Devices} {i : Nat} {d : Device} (hd : s.devices[i]? = some d)
    (hlt : d.seen < d.listened) : answers i s (.receive i) = [] := by
  simp [answers, hd, hlt]

theorem answers_receive {s : Devices} {i : Nat} {d : Device} {x : Decision Pending}
    (hd : s.devices[i]? = some d) (hle : d.listened ≤ d.seen) (hx : s.log[d.seen]? = some x) :
    answers i s (.receive i) = Decision.sentOver d.connection [x] := by
  simp [answers, hd, Nat.not_lt.mpr hle, hx]

/-- The connection of the device does not end. -/
def Connected (i : Nat) (es : List Event) : Prop := .reconnect i ∉ es

/-! ## A device and its connection -/

/-- The device `i` is `d`, has made the writes `ws` and received the answers to `ans`, and the
writes `inbox` of its connection are not decided. If it has always been `connected`, it has no other
connection. -/
structure Linked (record : Record) (log : List (Decision Pending)) (connections : List Connection)
    (i : Nat) (ws ans : List Pending) (connected : Prop) (d : Device) (inbox : List Pending) :
    Prop where
  connection : connections[d.connection]? = some ⟨i, inbox⟩
  learnt : d.app.node.Learnt Pending.apply record log d.connection inbox d.seen
  listened : d.listened ≤ log.length
  /-- No decision over the connection is older than the observation of the record over it. -/
  sentOver_listened : Decision.sentOver d.connection (log.take d.listened) = []
  made : ws = ans ++ d.app.node.pending
  sent : Decision.sentOver d.connection log ++ inbox <:+ ws
  /-- Each answer is to a decision. -/
  answered : ans.Sublist (Decision.own i (log.take d.seen))
  only : connected → (∀ (c : Nat) (inbox' : List Pending),
    connections[c]? = some ⟨i, inbox'⟩ → c = d.connection) ∧
      ws = Decision.sentOver d.connection log ++ inbox

/-- Each connection of the device `i` was there before. -/
def NoneNew (i : Nat) (connections connections' : List Connection) : Prop :=
  ∀ (c : Nat) (inbox' : List Pending), connections'[c]? = some ⟨i, inbox'⟩ →
    ∃ inbox, connections[c]? = some ⟨i, inbox⟩

section

variable {record : Record} {log : List (Decision Pending)} {connections : List Connection}
  {i : Nat} {ws ans : List Pending} {connected : Prop} {d : Device} {inbox : List Pending}

/-- A connection keeps its device. -/
theorem set_connection {c j : Nat} {box : List Pending} (hc : connections[c]? = some ⟨j, box⟩)
    (box' : List Pending) (c' i : Nat) :
    (∃ b, (connections.set c ⟨j, box'⟩)[c']? = some ⟨i, b⟩) ↔
      ∃ b, connections[c']? = some ⟨i, b⟩ := by
  by_cases hne : c = c'
  · subst hne
    rw [List.getElem?_set_self (List.getElem?_eq_some_iff.mp hc).1, hc]
    simp
  · rw [List.getElem?_set_ne hne]

theorem noneNew_set {c j : Nat} {box : List Pending} (hc : connections[c]? = some ⟨j, box⟩)
    (box' : List Pending) (i : Nat) : NoneNew i connections (connections.set c ⟨j, box'⟩) :=
  fun c' b h => (set_connection hc box' c' i).mp ⟨b, h⟩

theorem noneNew_concat {j : Nat} (hj : j ≠ i) (connections : List Connection)
    (box : List Pending) : NoneNew i connections (connections ++ [⟨j, box⟩]) := by
  intro c inbox' h
  rcases Nat.lt_or_ge c connections.length with hc | hc
  · rw [List.getElem?_append_left hc] at h
    exact ⟨inbox', h⟩
  · rw [List.getElem?_append_right hc] at h
    have he := List.mem_singleton.mp (List.mem_of_getElem? h)
    cases he
    exact (hj rfl).elim

theorem modify_connection {c : Nat} (hc : connections[c]? = some ⟨i, inbox⟩) (ws : List Pending) :
    (connections.modify c fun c => { c with inbox := c.inbox ++ ws }) =
      connections.set c ⟨i, inbox ++ ws⟩ := by
  rcases connections.modify_cases c (fun c => { c with inbox := c.inbox ++ ws })
    with he | ⟨x, hx, he⟩
  · have hlt := (List.getElem?_eq_some_iff.mp hc).1
    refine List.ext_getElem? fun j => ?_
    by_cases hj : c = j
    · subst hj
      rw [List.getElem?_modify_eq, hc, List.getElem?_set_self hlt]
      rfl
    · rw [List.getElem?_modify_ne _ _ hj, List.getElem?_set_ne hj]
  · rw [hc, Option.some.injEq] at hx
    subst hx
    exact he

namespace Linked

variable (h : Linked record log connections i ws ans connected d inbox)
include h

theorem imp {connected' : Prop} (hc : connected' → connected) :
    Linked record log connections i ws ans connected' d inbox :=
  { h with only := fun h' => h.only (hc h') }

/-- What happens to the other connections does not matter. -/
theorem frame {connections' : List Connection}
    (hc : connections'[d.connection]? = connections[d.connection]?)
    (hn : NoneNew i connections connections') :
    Linked record log connections' i ws ans connected d inbox :=
  { h with
    connection := hc.trans h.connection
    only := fun hcon => ⟨fun c inbox' hget => by
      obtain ⟨box, hbox⟩ := hn c inbox' hget
      exact (h.only hcon).1 c box hbox, (h.only hcon).2⟩ }

/-- The writes of an event of the device are sent over its connection. -/
theorem act {e : App.Event} {app : App} (he : e.isLocal = true)
    (hs : App.step d.app e = some app) :
    Linked record log (connections.set d.connection ⟨i, inbox ++ d.app.makes e⟩) i
      (ws ++ d.app.makes e) ans connected { d with app } (inbox ++ d.app.makes e) := by
  have hnode := App.node_local hs he
  have hlt := (List.getElem?_eq_some_iff.mp h.connection).1
  refine ⟨List.getElem?_set_self hlt, ?_, h.listened, h.sentOver_listened, ?_, ?_, h.answered,
    fun hcon => ⟨fun c inbox' hget => ?_, ?_⟩⟩
  · rw [hnode]
    exact h.learnt.write _
  · rw [hnode, h.made, List.append_assoc]
  · obtain ⟨us, hus⟩ := h.sent
    exact ⟨us, by rw [← hus]; simp⟩
  · obtain ⟨box, hbox⟩ := noneNew_set h.connection _ i c inbox' hget
    exact (h.only hcon).1 c box hbox
  · rw [(h.only hcon).2, List.append_assoc]

/-- The server decides on a write of another connection. -/
theorem decide_of_ne {x : Decision Pending} (hx : x.connection ≠ d.connection)
    {connections' : List Connection}
    (hc : connections'[d.connection]? = connections[d.connection]?)
    (hn : NoneNew i connections connections') :
    Linked record (log ++ [x]) connections' i ws ans connected d inbox := by
  have hover : Decision.sentOver d.connection (log ++ [x]) =
      Decision.sentOver d.connection log := by
    rw [Decision.sentOver_append, Decision.sentOver_singleton_of_ne hx, List.append_nil]
  have hframe := h.frame hc hn
  refine ⟨hframe.connection, h.learnt.decision_of_ne hx, Nat.le_trans h.listened (by simp), ?_,
    h.made, ?_, ?_, ?_⟩
  · rw [List.take_append_of_le_length h.listened]
    exact h.sentOver_listened
  · rw [hover]
    exact h.sent
  · rw [List.take_append_of_le_length h.learnt.le]
    exact h.answered
  · rw [hover]
    exact hframe.only

/-- The device receives a decision; it is an answer if it is about a write of its connection. -/
theorem receive {x : Decision Pending} {app : App} (hx : log[d.seen]? = some x)
    (hclient : x.connection = d.connection → x.client = i) (hs : Devices.receive d x = some app) :
    Linked record log connections i ws (ans ++ Decision.sentOver d.connection [x]) connected
      { d with app, seen := d.seen + 1 } inbox := by
  have hsub : ans.Sublist (Decision.own i (log.take (d.seen + 1))) := by
    refine h.answered.trans ?_
    rw [Decision.take_succ hx, Decision.own, Decision.writes_append]
    exact List.sublist_append_left _ _
  unfold Devices.receive at hs
  by_cases hc : x.connection = d.connection
  · rw [if_pos hc] at hs
    obtain ⟨hp, hlearnt⟩ := h.learnt.learn hx hc (App.node_answer hs)
    rw [Decision.sentOver_singleton hc]
    refine ⟨h.connection, hlearnt, h.listened, h.sentOver_listened, ?_, h.sent, ?_, h.only⟩
    · rw [h.made, hp, List.append_assoc]
      rfl
    · rw [Decision.take_succ hx, Decision.own, Decision.writes_append,
        Decision.writes_singleton (decide_eq_true (hclient hc))]
      exact h.answered.append (List.Sublist.refl _)
  · rw [if_neg hc] at hs
    have hlearnt := h.learnt.learn_of_ne hx hc
    have happ : app.node = { d.app.node with
        server := Decision.result Pending.apply d.app.node.server x } := by
      unfold Decision.result
      split at hs
      · rename_i ha
        rw [App.node_remote hs, if_pos ha]
        rfl
      · rename_i ha
        cases hs
        rw [if_neg ha]
    rw [Decision.sentOver_singleton_of_ne hc, List.append_nil]
    refine ⟨h.connection, by rw [happ]; exact hlearnt, h.listened, h.sentOver_listened, ?_, h.sent,
      hsub, h.only⟩
    rw [happ]
    exact h.made

/-- The device receives the record that it observes anew. -/
theorem snapshot {app : App} (hlt : d.seen < d.listened)
    (hs : App.step d.app (.remote (.record
      (Decision.after Pending.apply record (log.take d.listened)))) = some app) :
    Linked record log connections i ws ans connected { d with app, seen := d.listened } inbox := by
  have hnode : app.node = { d.app.node with
      server := Decision.after Pending.apply record (log.take d.listened) } := App.node_remote hs
  refine ⟨h.connection, ?_, h.listened, h.sentOver_listened, ?_, h.sent, ?_, h.only⟩
  · rw [hnode]
    exact h.learnt.snapshot (Nat.le_of_lt hlt) h.listened h.sentOver_listened
  · rw [hnode]
    exact h.made
  · have htake : log.take d.seen <+: log.take d.listened :=
      List.take_prefix_take_left (Nat.le_of_lt hlt)
    exact h.answered.trans ((htake.sublist.filter _).map _)

/-- All that is not answered is sent over the new connection. -/
theorem reconnect {connected' : Prop} (hno : ¬ connected')
    (hnew : ∀ x ∈ log, x.connection ≠ connections.length) :
    Linked record log (connections ++ [⟨i, d.app.node.pending⟩]) i ws ans connected'
      { d with connection := connections.length, listened := log.length } d.app.node.pending := by
  have hover : Decision.sentOver connections.length log = [] := Decision.sentOver_eq_nil hnew
  refine ⟨List.getElem?_concat_length, h.learnt.reconnect hnew, Nat.le_refl _, ?_, h.made, ?_,
    h.answered, fun hcon => (hno hcon).elim⟩
  · rw [List.take_length]
    exact hover
  · rw [hover, List.nil_append, h.made]
    exact List.suffix_append _ _

omit h in
/-- The server decides on the oldest write of the connection. -/
theorem decide {write : Pending}
    (h : Linked record log connections i ws ans connected d (write :: inbox)) (accepted : Bool) :
    Linked record (log ++ [⟨i, d.connection, write, accepted⟩])
      (connections.set d.connection ⟨i, inbox⟩) i ws ans connected d inbox := by
  have hlt := (List.getElem?_eq_some_iff.mp h.connection).1
  have hover :
      Decision.sentOver d.connection (log ++ [⟨i, d.connection, write, accepted⟩]) ++ inbox =
        Decision.sentOver d.connection log ++ write :: inbox := by
    rw [Decision.sentOver_append, Decision.sentOver_singleton (c := d.connection) rfl,
      List.append_assoc]
    rfl
  refine ⟨List.getElem?_set_self hlt, h.learnt.decision rfl, Nat.le_trans h.listened (by simp), ?_,
    h.made, ?_, ?_, fun hcon => ⟨fun c inbox' hget => ?_, ?_⟩⟩
  · rw [List.take_append_of_le_length h.listened]
    exact h.sentOver_listened
  · rw [hover]
    exact h.sent
  · rw [List.take_append_of_le_length h.learnt.le]
    exact h.answered
  · obtain ⟨box, hbox⟩ := noneNew_set h.connection _ i c inbox' hget
    exact (h.only hcon).1 c box hbox
  · rw [hover]
    exact (h.only hcon).2

end Linked

/-- A device that enters. -/
theorem linked_enter (today : Date) (hnew : ∀ x ∈ log, x.connection ≠ connections.length)
    (hother : ∀ (c : Nat) (inbox' : List Pending), connections[c]? ≠ some ⟨i, inbox'⟩) :
    Linked record log (connections ++ [⟨i, []⟩]) i [] [] connected
      { app := App.enter ⟨Decision.after Pending.apply record log, []⟩ today
        connection := connections.length
        listened := log.length
        seen := log.length } [] := by
  have hover : Decision.sentOver connections.length log = [] := Decision.sentOver_eq_nil hnew
  refine ⟨List.getElem?_concat_length, Replica.learnt_join _ _ _ _, Nat.le_refl _, ?_, rfl, ?_,
    List.nil_sublist _, fun _ => ⟨fun c inbox' hget => ?_, ?_⟩⟩
  · rw [List.take_length]
    exact hover
  · rw [hover]
    exact List.suffix_refl _
  · rcases Nat.lt_trichotomy c connections.length with hc | hc | hc
    · rw [List.getElem?_append_left hc] at hget
      exact (hother c inbox' hget).elim
    · exact hc
    · rw [List.getElem?_eq_none (by simp; omega)] at hget
      cases hget
  · rw [hover]
    rfl

end

/-! ## All devices -/

/-- The devices, their connections and the decisions, after the events `es`. -/
structure Consistent (record : Record) (es : List Event) (s : Devices) : Prop where
  record_eq : s.record = record
  log : ∀ x ∈ s.log, ∃ inbox, s.connections[x.connection]? = some ⟨x.client, inbox⟩
  sent : ∀ (c i : Nat) (inbox : List Pending), s.connections[c]? = some ⟨i, inbox⟩ →
    i < s.devices.length ∧ Decision.sentOver c s.log ++ inbox <:+: made (start record) es i
  linked : ∀ i (d : Device), s.devices[i]? = some d → ∃ inbox,
    Linked record s.log s.connections i (made (start record) es i) (answered (start record) es i)
      (Connected i es) d inbox
  new : ∀ i, s.devices.length ≤ i →
    made (start record) es i = [] ∧ answered (start record) es i = []

theorem connected_concat {i : Nat} {es : List Event} {e : Event} (h : Connected i (es ++ [e])) :
    Connected i es := fun hm => h (List.mem_append_left _ hm)

theorem makes_of_none {i : Nat} {s : Devices} (h : s.devices[i]? = none) (e : Event) :
    makes i s e = [] ∧ answers i s e = [] := by
  cases e <;> simp [makes, answers, h]

theorem getElem?_set_cases {l : List Device} {j : Nat} {d' : Device} {i : Nat} {d : Device}
    (h : (l.set j d')[i]? = some d) : (i = j ∧ d = d') ∨ (i ≠ j ∧ l[i]? = some d) := by
  by_cases hi : j = i
  · subst hi
    have hlt := (List.getElem?_eq_some_iff.mp h).1
    rw [List.length_set] at hlt
    rw [List.getElem?_set_self hlt, Option.some.injEq] at h
    exact .inl ⟨rfl, h.symm⟩
  · rw [List.getElem?_set_ne hi] at h
    exact .inr ⟨Ne.symm hi, h⟩

section

variable {record : Record} {es : List Event} {m : Devices}
  (hm : Machine.run step (start record) es = some m)

namespace Consistent

variable (h : Consistent record es m)
include h

theorem lt_length {x : Decision Pending} (hx : x ∈ m.log) :
    x.connection < m.connections.length := by
  obtain ⟨inbox, hc⟩ := h.log x hx
  exact (List.getElem?_eq_some_iff.mp hc).1

include hm

/-- A device that the event leaves alone. -/
theorem linked_concat {i : Nat} {d : Device} (hd : m.devices[i]? = some d) {e : Event}
    (hmakes : makes i m e = []) (hanswers : answers i m e = []) : ∃ inbox,
    Linked record m.log m.connections i (made (start record) (es ++ [e]) i)
      (answered (start record) (es ++ [e]) i) (Connected i (es ++ [e])) d inbox := by
  obtain ⟨inbox, hl⟩ := h.linked i d hd
  rw [made_concat hm, hmakes, answered_concat hm, hanswers, List.append_nil, List.append_nil]
  exact ⟨inbox, hl.imp connected_concat⟩

/-- A connection that the event leaves alone. -/
theorem sent_concat {c i : Nat} {inbox : List Pending}
    (hc : m.connections[c]? = some ⟨i, inbox⟩) (e : Event) : i < m.devices.length ∧
      Decision.sentOver c m.log ++ inbox <:+: made (start record) (es ++ [e]) i := by
  obtain ⟨hi, hsent⟩ := h.sent c i inbox hc
  rw [made_concat hm]
  exact ⟨hi, hsent.trans (List.prefix_append _ _).isInfix⟩

theorem new_concat (e : Event) {i : Nat} (hi : m.devices.length ≤ i) :
    made (start record) (es ++ [e]) i = [] ∧ answered (start record) (es ++ [e]) i = [] := by
  obtain ⟨hmade, hanswered⟩ := h.new i hi
  obtain ⟨hmakes, hanswers⟩ := makes_of_none (List.getElem?_eq_none hi) e
  rw [made_concat hm, answered_concat hm, hmade, hanswered, hmakes, hanswers]
  exact ⟨rfl, rfl⟩

theorem enter (today : Date) : Consistent record (es ++ [.enter today]) { m with
    connections := m.connections ++ [⟨m.devices.length, []⟩]
    devices := m.devices ++ [{
      app := App.enter ⟨m.server, []⟩ today
      connection := m.connections.length
      listened := m.log.length
      seen := m.log.length }] } := by
  have hnew : ∀ x ∈ m.log, x.connection ≠ m.connections.length :=
    fun x hx => Nat.ne_of_lt (h.lt_length hx)
  refine ⟨h.record_eq, fun x hx => ?_, fun c i inbox hc => ?_, fun i d hd => ?_, fun i hi => ?_⟩
  · obtain ⟨inbox, hc⟩ := h.log x hx
    exact ⟨inbox, by rw [List.getElem?_append_left (h.lt_length hx)]; exact hc⟩
  · rw [List.length_append]
    rcases Nat.lt_or_ge c m.connections.length with hlt | hge
    · rw [List.getElem?_append_left hlt] at hc
      exact (h.sent_concat hm hc _).imp_left (Nat.lt_of_lt_of_le · (Nat.le_add_right _ _))
    · rw [List.getElem?_append_right hge] at hc
      obtain ⟨h0, -⟩ := List.getElem?_eq_some_iff.mp hc
      have he : c = m.connections.length := by simp at h0; omega
      subst he
      cases List.mem_singleton.mp (List.mem_of_getElem? hc)
      rw [Decision.sentOver_eq_nil hnew]
      exact ⟨by simp, List.nil_infix⟩
  · rcases Nat.lt_or_ge i m.devices.length with hlt | hge
    · rw [List.getElem?_append_left hlt] at hd
      obtain ⟨inbox, hl⟩ := h.linked_concat hm hd (e := .enter today) rfl rfl
      refine ⟨inbox, hl.frame (List.getElem?_append_left ?_) (noneNew_concat (by omega) _ _)⟩
      exact (List.getElem?_eq_some_iff.mp hl.connection).1
    · have hlast := hd
      rw [List.getElem?_append_right hge] at hlast
      have hi : i = m.devices.length := by
        have := (List.getElem?_eq_some_iff.mp hd).1
        simp at this
        omega
      subst hi
      obtain ⟨hmade, hanswered⟩ := h.new_concat hm (.enter today) (Nat.le_refl _)
      rw [List.mem_singleton.mp (List.mem_of_getElem? hlast), hmade, hanswered, Devices.server,
        h.record_eq]
      refine ⟨[], linked_enter today hnew fun c inbox hc => ?_⟩
      exact absurd (h.sent c _ inbox hc).1 (Nat.lt_irrefl _)
  · rw [List.length_append] at hi
    exact h.new_concat hm _ (Nat.le_of_add_right_le hi)

theorem act {i : Nat} {e : App.Event} {d : Device} {app : App} (hd : m.devices[i]? = some d)
    (he : e.isLocal = true) (hs : App.step d.app e = some app) :
    Consistent record (es ++ [.act i e]) { m with
      connections := m.connections.modify d.connection fun c =>
        { c with inbox := c.inbox ++ d.app.makes e }
      devices := m.devices.set i { d with app } } := by
  obtain ⟨inbox, hl⟩ := h.linked i d hd
  have hact := (hl.act he hs).imp (connected_concat (e := .act i e))
  have hmade : made (start record) (es ++ [.act i e]) i =
      made (start record) es i ++ d.app.makes e := by rw [made_concat hm, makes_act hd]
  have hanswered : answered (start record) (es ++ [.act i e]) i = answered (start record) es i := by
    rw [answered_concat hm]
    exact List.append_nil _
  rw [← hmade, ← hanswered] at hact
  rw [modify_connection hl.connection]
  refine ⟨h.record_eq, fun x hx => (set_connection hl.connection _ _ _).mpr (h.log x hx),
    fun c k box hc => ?_, fun k d' hd' => ?_, fun k hk => ?_⟩
  · rw [List.length_set]
    by_cases hne : d.connection = c
    · subst hne
      have hbox := hact.connection.symm.trans hc
      cases hbox
      exact ⟨(List.getElem?_eq_some_iff.mp hd).1, hact.sent.isInfix⟩
    · rw [List.getElem?_set_ne hne] at hc
      exact h.sent_concat hm hc _
  · rcases getElem?_set_cases hd' with ⟨rfl, rfl⟩ | ⟨hk, hd'⟩
    · exact ⟨_, hact⟩
    · obtain ⟨box, hbox⟩ := h.linked_concat hm hd' (makes_act_of_ne (Ne.symm hk) m e) rfl
      refine ⟨box, hbox.frame (List.getElem?_set_ne ?_) (noneNew_set hl.connection _ _)⟩
      intro hc
      have hsame := hl.connection
      rw [hc, hbox.connection] at hsame
      cases hsame
      exact hk rfl
  · rw [List.length_set] at hk
    exact h.new_concat hm _ hk

theorem decide {c i : Nat} {write : Pending} {inbox : List Pending} (accepted : Bool)
    (hc : m.connections[c]? = some ⟨i, write :: inbox⟩) :
    Consistent record (es ++ [.decide c accepted]) { m with
      log := m.log ++ [⟨i, c, write, accepted⟩]
      connections := m.connections.set c ⟨i, inbox⟩ } := by
  refine ⟨h.record_eq, fun x hx => ?_, fun c' k box hbox => ?_, fun k d hd => ?_,
    fun k hk => h.new_concat hm _ hk⟩
  · refine (set_connection hc _ _ _).mpr ?_
    rcases List.mem_append.mp hx with hx | hx
    · exact h.log x hx
    · rw [List.mem_singleton.mp hx]
      exact ⟨_, hc⟩
  · by_cases hne : c = c'
    · subst hne
      rw [List.getElem?_set_self (List.getElem?_eq_some_iff.mp hc).1] at hbox
      cases hbox
      have hsent := h.sent_concat hm hc (.decide c accepted)
      rwa [Decision.sentOver_append, Decision.sentOver_singleton (c := c) rfl, List.append_assoc]
    · rw [List.getElem?_set_ne hne] at hbox
      rw [Decision.sentOver_append, Decision.sentOver_singleton_of_ne (c := c') hne,
        List.append_nil]
      exact h.sent_concat hm hbox _
  · obtain ⟨box, hl⟩ := h.linked_concat hm hd (e := .decide c accepted) rfl rfl
    by_cases hne : c = d.connection
    · subst hne
      have hbox := hl.connection.symm.trans hc
      cases hbox
      exact ⟨inbox, hl.decide accepted⟩
    · exact ⟨box, hl.decide_of_ne hne (List.getElem?_set_ne hne) (noneNew_set hc _ _)⟩

/-- The device `i` changes, and what it sends and the decisions stay. -/
theorem device {i : Nat} {e : Event} {d' : Device} (hi : i < m.devices.length)
    (hmakes : ∀ k, k ≠ i → makes k m e = [] ∧ answers k m e = [])
    (hlinked : ∃ inbox, Linked record m.log m.connections i (made (start record) (es ++ [e]) i)
      (answered (start record) (es ++ [e]) i) (Connected i (es ++ [e])) d' inbox) :
    Consistent record (es ++ [e]) { m with devices := m.devices.set i d' } := by
  refine ⟨h.record_eq, h.log, fun c k inbox hc => ?_, fun k d hd => ?_, fun k hk => ?_⟩
  · rw [List.length_set]
    exact h.sent_concat hm hc e
  · rcases getElem?_set_cases hd with ⟨rfl, rfl⟩ | ⟨hk, hd⟩
    · exact hlinked
    · exact h.linked_concat hm hd (hmakes k hk).1 (hmakes k hk).2
  · rw [List.length_set] at hk
    exact h.new_concat hm e hk

theorem snapshot {i : Nat} {d : Device} {app : App} (hd : m.devices[i]? = some d)
    (hlt : d.seen < d.listened)
    (hs : App.step d.app (.remote (.record
      (Decision.after Pending.apply m.record (m.log.take d.listened)))) = some app) :
    Consistent record (es ++ [.receive i])
      { m with devices := m.devices.set i { d with app, seen := d.listened } } := by
  refine h.device hm (List.getElem?_eq_some_iff.mp hd).1
    (fun k hk => ⟨rfl, answers_receive_of_ne (Ne.symm hk) m⟩) ?_
  obtain ⟨inbox, hl⟩ := h.linked_concat hm hd (e := .receive i) rfl (answers_snapshot hd hlt)
  rw [h.record_eq] at hs
  exact ⟨inbox, hl.snapshot hlt hs⟩

theorem receive {i : Nat} {d : Device} {x : Decision Pending} {app : App}
    (hd : m.devices[i]? = some d) (hle : d.listened ≤ d.seen) (hx : m.log[d.seen]? = some x)
    (hs : Devices.receive d x = some app) :
    Consistent record (es ++ [.receive i])
      { m with devices := m.devices.set i { d with app, seen := d.seen + 1 } } := by
  refine h.device hm (List.getElem?_eq_some_iff.mp hd).1
    (fun k hk => ⟨rfl, answers_receive_of_ne (Ne.symm hk) m⟩) ?_
  obtain ⟨inbox, hl⟩ := h.linked i d hd
  refine ⟨inbox, ?_⟩
  rw [made_concat hm, answered_concat hm, answers_receive hd hle hx]
  have hclient : x.connection = d.connection → x.client = i := by
    intro hc
    obtain ⟨box, hbox⟩ := h.log x (List.mem_of_getElem? hx)
    rw [hc, hl.connection] at hbox
    cases hbox
    rfl
  rw [show makes i m (.receive i) = [] from rfl, List.append_nil]
  exact (hl.receive hx hclient hs).imp connected_concat

theorem reconnect {i : Nat} {d : Device} (hd : m.devices[i]? = some d) :
    Consistent record (es ++ [.reconnect i]) { m with
      connections := m.connections ++ [⟨i, d.app.node.pending⟩]
      devices := m.devices.set i
        { d with connection := m.connections.length, listened := m.log.length } } := by
  have hnew : ∀ x ∈ m.log, x.connection ≠ m.connections.length :=
    fun x hx => Nat.ne_of_lt (h.lt_length hx)
  obtain ⟨inbox, hl⟩ := h.linked_concat hm hd (e := .reconnect i) rfl rfl
  have hno : ¬ Connected i (es ++ [.reconnect i]) := fun hc => hc (by simp)
  have hlinked := hl.reconnect hno hnew
  refine ⟨h.record_eq, fun x hx => ?_, fun c k box hc => ?_, fun k d' hd' => ?_, fun k hk => ?_⟩
  · obtain ⟨box, hc⟩ := h.log x hx
    exact ⟨box, by rw [List.getElem?_append_left (h.lt_length hx)]; exact hc⟩
  · rw [List.length_set]
    rcases Nat.lt_or_ge c m.connections.length with hlt | hge
    · rw [List.getElem?_append_left hlt] at hc
      exact h.sent_concat hm hc _
    · have he : c = m.connections.length := by
        have := (List.getElem?_eq_some_iff.mp hc).1
        simp at this
        omega
      subst he
      have hbox := hlinked.connection.symm.trans hc
      cases hbox
      exact ⟨(List.getElem?_eq_some_iff.mp hd).1, hlinked.sent.isInfix⟩
  · rcases getElem?_set_cases hd' with ⟨rfl, rfl⟩ | ⟨hk, hd'⟩
    · exact ⟨_, hlinked⟩
    · obtain ⟨box, hbox⟩ := h.linked_concat hm hd' (e := .reconnect i) rfl rfl
      refine ⟨box, hbox.frame (List.getElem?_append_left ?_) (noneNew_concat (Ne.symm hk) _ _)⟩
      exact (List.getElem?_eq_some_iff.mp hbox.connection).1
  · rw [List.length_set] at hk
    exact h.new_concat hm _ hk

end Consistent

end

theorem consistent_run {record : Record} {es : List Event} {t : Devices}
    (hrun : Machine.run step (start record) es = some t) : Consistent record es t := by
  refine Machine.run_history (I := Consistent record) ⟨rfl, by simp [start], by simp [start],
    by simp [start], fun _ _ => ⟨rfl, rfl⟩⟩ ?_ hrun
  intro es e m t hm h hs
  cases step_to hs with
  | enter today => exact h.enter hm today
  | act i e d app hd he hstep => exact h.act hm hd he hstep
  | decide c accepted i write inbox hc => exact h.decide hm accepted hc
  | snapshot i d app hd hlt hstep => exact h.snapshot hm hd hlt hstep
  | receive i d x app hd hle hx hstep => exact h.receive hm hd hle hx hstep
  | reconnect i d hd => exact h.reconnect hm hd

/-! ## The app of a device -/

open App (ScreenWrite AppWrite RemoteKeeps Kept)

/-- The record after some writes of the screens. -/
def Reachable (record value : Record) : Prop :=
  ∃ ws, (∀ w ∈ ws, ScreenWrite w) ∧ value = Write.applyAll ws record

/-- What the app of a device receives as the write of another one: a write of the screens, or the
record after some of them. -/
def FromServer (record : Record) (e : App.Event) : Prop :=
  ∀ w, e = .remote w → ScreenWrite w ∨ ∃ value, Reachable record value ∧ w = .record value

variable {record : Record} {log : List (Decision Pending)} {es : List Event} {i : Nat} {app : App}

theorem Reachable.kept {P : Record → Prop} (hP : Kept ScreenWrite P) (h : P record)
    {value : Record} (hv : Reachable record value) : P value := by
  obtain ⟨ws, hws, rfl⟩ := hv
  exact List.foldlRecOn ws _ h fun v hv w hw => hP v w hv (hws w hw)

theorem FromServer.keeps {P : Record → Prop} (hP : Kept ScreenWrite P) (h : P record)
    {e : App.Event} (he : FromServer record e) : RemoteKeeps P e := by
  intro w hw v hv
  rcases he w hw with hscreen | ⟨value, hvalue, rfl⟩
  · exact hP v w hv hscreen
  · exact hvalue.kept hP h

/-- The record after some decisions about writes of the screens. -/
theorem reachable_after (hlog : ∀ x ∈ log, ScreenWrite x.write.write) :
    Reachable record (Decision.after Pending.apply record log) := by
  refine ⟨(Decision.writes (fun x => x.accepted) log).map Pending.write, fun w hw => ?_, ?_⟩
  · obtain ⟨p, hp, rfl⟩ := List.mem_map.mp hw
    obtain ⟨x, hx, -, rfl⟩ := Decision.mem_writes.mp hp
    exact hlog x hx
  · rw [Decision.after_eq_foldl, Write.applyAll, List.foldl_map]
    rfl

theorem reachable_take (hlog : ∀ x ∈ log, ScreenWrite x.write.write) (n : Nat) :
    Reachable record (Decision.after Pending.apply record (log.take n)) :=
  reachable_after fun x hx => hlog x (List.mem_of_mem_take hx)

/-- The app of the device `i` has entered with the record after some writes of the screens and has
had the events `fs`: those of the device, and what it has received. -/
def Ran (record : Record) (es : List Event) (i : Nat) (app : App) : Prop :=
  ∃ value today fs, Reachable record value ∧
    Machine.run App.step (App.enter ⟨value, []⟩ today) fs = some app ∧
    (∀ e ∈ fs, FromServer record e) ∧ ∀ e ∈ fs, e.isLocal = true → .act i e ∈ es

theorem Ran.concat (h : Ran record es i app) (e : Event) : Ran record (es ++ [e]) i app := by
  obtain ⟨value, today, fs, hv, hrun, hserver, hlocal⟩ := h
  exact ⟨value, today, fs, hv, hrun, hserver, fun e' he hl =>
    List.mem_append_left _ (hlocal e' he hl)⟩

theorem Ran.step (h : Ran record es i app) {e : App.Event} {app' : App}
    (hs : App.step app e = some app') (hserver : FromServer record e)
    (hlocal : e.isLocal = true → .act i e ∈ es) : Ran record es i app' := by
  obtain ⟨value, today, fs, hv, hrun, hserver', hlocal'⟩ := h
  exact ⟨value, today, fs ++ [e], hv, Machine.run_concat_eq_some.mpr ⟨app, hrun, hs⟩,
    List.forall_mem_append.mpr ⟨hserver', List.forall_mem_singleton.mpr hserver⟩,
    List.forall_mem_append.mpr ⟨hlocal', List.forall_mem_singleton.mpr hlocal⟩⟩

/-- The writes on the way from a device are of its screens. -/
theorem Ran.pending (h : Ran record es i app) : ∀ p ∈ app.node.pending, ScreenWrite p.write := by
  obtain ⟨value, today, fs, -, hrun, -, -⟩ := h
  exact (App.seen_run (P := fun _ => True) (fun _ _ _ _ => trivial) (fun _ hw => hw)
    ⟨trivial, by simp⟩ hrun fun _ _ _ _ _ _ => trivial).1.pending

theorem Ran.receive {d : Device} {x : Decision Pending} (h : Ran record es i d.app)
    (hs : Devices.receive d x = some app) (hx : ScreenWrite x.write.write) :
    Ran record es i app := by
  unfold Devices.receive at hs
  split at hs
  · exact h.step hs (by simp [FromServer]) (by simp [App.Event.isLocal])
  · split at hs
    · refine h.step hs ?_ (by simp [App.Event.isLocal])
      rintro w he
      cases he
      exact .inl hx
    · cases hs
      exact h

/-- All writes that were sent and all decisions are about writes of the screens, and each app has
run on its own. -/
structure AllRan (record : Record) (es : List Event) (s : Devices) : Prop where
  record_eq : s.record = record
  log : ∀ x ∈ s.log, ScreenWrite x.write.write
  sent : ∀ c ∈ s.connections, ∀ p ∈ c.inbox, ScreenWrite p.write
  ran : ∀ i (d : Device), s.devices[i]? = some d → Ran record es i d.app

theorem AllRan.set {s : Devices} (h : AllRan record es s) (e : Event) {j : Nat} {d' : Device}
    (hd' : Ran record (es ++ [e]) j d'.app) :
    ∀ i (d : Device), (s.devices.set j d')[i]? = some d → Ran record (es ++ [e]) i d.app := by
  intro i d hd
  rcases getElem?_set_cases hd with ⟨rfl, rfl⟩ | ⟨-, hd⟩
  · exact hd'
  · exact (h.ran i d hd).concat e

/-- A new connection over which such writes are sent. -/
theorem AllRan.sent_concat {s : Devices} (h : AllRan record es s) (k : Nat) {inbox : List Pending}
    (hinbox : ∀ p ∈ inbox, ScreenWrite p.write) :
    ∀ c ∈ s.connections ++ [⟨k, inbox⟩], ∀ p ∈ c.inbox, ScreenWrite p.write := by
  intro c hc
  rcases List.mem_append.mp hc with hc | hc
  · exact h.sent c hc
  · rw [List.mem_singleton.mp hc]
    exact hinbox

/-- Such writes are sent over a connection. -/
theorem AllRan.sent_modify {s : Devices} (h : AllRan record es s) (n : Nat) {writes : List Pending}
    (hwrites : ∀ p ∈ writes, ScreenWrite p.write) :
    ∀ c ∈ s.connections.modify n fun c => { c with inbox := c.inbox ++ writes },
      ∀ p ∈ c.inbox, ScreenWrite p.write := by
  intro c hc p hp
  rcases s.connections.modify_cases n (fun c => { c with inbox := c.inbox ++ writes })
    with hsame | ⟨c', hc', hset⟩
  · rw [hsame] at hc
    exact h.sent c hc p hp
  · rw [hset] at hc
    rcases List.mem_or_eq_of_mem_set hc with hc | rfl
    · exact h.sent c hc p hp
    · rcases List.mem_append.mp hp with hp | hp
      · exact h.sent c' (List.mem_of_getElem? hc') p hp
      · exact hwrites p hp

theorem AllRan.step {m t : Devices} {e : Event} (h : AllRan record es m)
    (hs : Devices.step m e = some t) : AllRan record (es ++ [e]) t := by
  cases step_to hs with
  | enter today =>
    refine ⟨h.record_eq, h.log, h.sent_concat _ (by simp), fun i d hd => ?_⟩
    rcases Nat.lt_or_ge i m.devices.length with hi | hi
    · exact (h.ran i d (by rwa [List.getElem?_append_left hi] at hd)).concat _
    · rw [List.getElem?_append_right hi] at hd
      rw [List.mem_singleton.mp (List.mem_of_getElem? hd), Devices.server, h.record_eq]
      exact ⟨_, today, [], reachable_after h.log, rfl, by simp, by simp⟩
  | act j e d app hd he hstep =>
    have happ : Ran record (es ++ [.act j e]) j app := by
      refine ((h.ran j d hd).concat _).step hstep ?_ fun _ => by simp
      rintro w rfl
      cases he
    refine ⟨h.record_eq, h.log, h.sent_modify _ fun p hp => happ.pending p ?_, h.set _ happ⟩
    rw [App.node_local hstep he]
    exact List.mem_append_right _ hp
  | decide c accepted i write inbox hc =>
    have hsent := h.sent _ (List.mem_of_getElem? hc)
    refine ⟨h.record_eq, fun x hx => ?_, fun c' hc' p hp => ?_, fun k d hd =>
      (h.ran k d hd).concat _⟩
    · rcases List.mem_append.mp hx with hx | hx
      · exact h.log x hx
      · rw [List.mem_singleton.mp hx]
        exact hsent write List.mem_cons_self
    · rcases List.mem_or_eq_of_mem_set hc' with hc' | rfl
      · exact h.sent c' hc' p hp
      · exact hsent p (List.mem_cons_of_mem _ hp)
  | snapshot j d app hd hlt hstep =>
    refine ⟨h.record_eq, h.log, h.sent, h.set _ ?_⟩
    refine ((h.ran j d hd).concat _).step hstep ?_ (by simp [App.Event.isLocal])
    rintro w he
    cases he
    rw [h.record_eq]
    exact .inr ⟨_, reachable_take h.log _, rfl⟩
  | receive j d x app hd hle hx hstep =>
    refine ⟨h.record_eq, h.log, h.sent, h.set _ ?_⟩
    exact ((h.ran j d hd).concat _).receive hstep (h.log x (List.mem_of_getElem? hx))
  | reconnect j d hd =>
    have hran := (h.ran j d hd).concat (.reconnect j)
    exact ⟨h.record_eq, h.log, h.sent_concat _ hran.pending, h.set _ hran⟩

theorem allRan_run {t : Devices} (hrun : Machine.run step (start record) es = some t) :
    AllRan record es t :=
  Machine.run_history ⟨rfl, by simp [start], by simp [start], by simp [start]⟩
    (fun _ _ _ _ _ h hs => AllRan.step h hs) hrun

/-! ## What the devices agree on -/

/-- For every run of any number of devices, whatever the order of their events, of the decisions and
their receipt, and of the ends of connections: the copy of a device is the record of the server
after the decisions that it has learnt. Its writes are those that were answered and then those that
are pending, and the answers are to decisions about its writes, in their order. What is decided or
not yet decided over one connection are writes that the device has made one after the other. If its
connection has not ended, the server has decided on the first of its writes, on each once and in
order. -/
theorem devices_consistent {t : Devices} (hrun : Machine.run step (start record) es = some t)
    {d : Device} (hd : t.devices[i]? = some d) :
    d.seen ≤ t.log.length ∧
      d.app.node.server = Decision.after Pending.apply record (t.log.take d.seen) ∧
      made (start record) es i = answered (start record) es i ++ d.app.node.pending ∧
      (answered (start record) es i).Sublist (Decision.own i (t.log.take d.seen)) ∧
      (∀ (c : Nat) (inbox : List Pending), t.connections[c]? = some ⟨i, inbox⟩ →
        Decision.sentOver c t.log ++ inbox <:+: made (start record) es i) ∧
      (Connected i es → Decision.own i t.log <+: made (start record) es i) := by
  have hconsistent := consistent_run hrun
  obtain ⟨inbox, h⟩ := hconsistent.linked i d hd
  refine ⟨h.learnt.le, h.learnt.server, h.made, h.answered,
    fun c box hc => (hconsistent.sent c i box hc).2, fun hc => ?_⟩
  obtain ⟨honly, hmade⟩ := h.only hc
  have hown : Decision.own i t.log = Decision.sentOver d.connection t.log := by
    refine Decision.writes_congr fun x hx => ?_
    obtain ⟨box, hbox⟩ := hconsistent.log x hx
    refine decide_eq_decide.mpr ⟨fun hi => ?_, fun hi => ?_⟩
    · subst hi
      exact honly _ _ hbox
    · rw [hi, h.connection] at hbox
      cases hbox
      rfl
  rw [hown, hmade]
  exact List.prefix_append _ _

/-- Two devices; the profile form of the first is filled and saved. The server accepts the name, and
the connection of the first ends before the answer arrives; so the name is sent and accepted again,
while the second device saves its sources. -/
def saving : List Event :=
  [.enter newYear2020, .enter newYear2020] ++
    (App.filling ++ [App.Event.profile 0 .save]).map (.act 0) ++
    [.decide 0 true, .receive 1, .reconnect 0, .receive 0] ++
    (App.selecting ++ [App.Event.sources 0 .done]).map (.act 1) ++
    [.decide 2 true, .decide 1 true, .decide 2 false, .receive 0, .receive 0, .receive 1,
      .receive 1]

theorem devices_consistent_saving : ∃ t d,
    Machine.run step (start postInfo) saving = some t ∧ t.devices[0]? = some d ∧
      d.seen ≤ t.log.length ∧
      d.app.node.server = Decision.after Pending.apply postInfo (t.log.take d.seen) ∧
      made (start postInfo) saving 0 = answered (start postInfo) saving 0 ++ d.app.node.pending ∧
      (answered (start postInfo) saving 0).Sublist (Decision.own 0 (t.log.take d.seen)) ∧
      (∀ (c : Nat) (inbox : List Pending), t.connections[c]? = some ⟨0, inbox⟩ →
        Decision.sentOver c t.log ++ inbox <:+: made (start postInfo) saving 0) ∧
      (Connected 0 saving → Decision.own 0 t.log <+: made (start postInfo) saving 0) :=
  ⟨_, _, rfl, rfl, @devices_consistent postInfo saving 0 _ rfl _ rfl⟩

/-- Nothing is on the way to or from the device. -/
structure Settled (s : Devices) (d : Device) : Prop where
  seen : d.seen = s.log.length
  answered : d.app.node.pending = []
  received : d.app.bus.Drained

/-- The device `i` shows the record, but for the texts and the lists that its user has touched in
the events `es`. -/
structure Shows (record : Record) (es : List Event) (i : Nat) (app : App) : Prop where
  view : app.view = record
  home : ∃ q, app.requests.getLast? = some q ∧
    q.sources = HomeViewController.userSources (getUserSources record.snapshot)
  form : ∀ k (f : ProfileViewController.TextField) (c : ProfileViewController),
    app.profiles[k]? = some c → (∀ text, .act i (.profile k (.edit f text)) ∉ es) →
    record.isEmpty = false → c.form.text f.field = (record.string? f.field).getD []
  list : ∀ k (c : SourcesViewController), app.sources[k]? = some c → c.observing = true →
    (∀ row, .act i (.sources k (.tap row)) ∉ es) →
    c.userSources = SourcesViewModel.parseUserSources (getUserSources record.snapshot)

theorem Ran.shows (h : Ran record es i app) (hreceived : app.bus.Drained)
    (hanswered : app.node.pending = []) : Shows app.view es i app := by
  obtain ⟨value, today, fs, -, hrun, -, hlocal⟩ := h
  have hview : app.view = app.node.server := App.view_of_answered hanswered
  refine ⟨rfl, ?_, fun k f c hc hedit hne => ?_, fun k c hc ho htap => ?_⟩
  · obtain ⟨q, hq⟩ := App.exists_last_request hrun hreceived
    refine ⟨q, hq, ?_⟩
    rw [hview]
    exact App.sources_of_last_request hrun hreceived hanswered hq
  · have hform := (App.formFollows_enter (E := fun _ => False) (f := f) (k := k) _ _).run hrun
      (by
        rintro e he ⟨text, rfl⟩
        exact (hedit text (hlocal _ he rfl)).elim)
    exact hform.text_eq id hreceived hne hc
  · have hlist := (App.sourcesFollows_enter (E := fun _ => False) (k := k) _ _).run hrun
      (by
        rintro e he ⟨row, rfl⟩
        exact (htap row (hlocal _ he rfl)).elim)
    exact hlist.list_eq id hreceived hc ho

/-- For every run of any number of devices: once nothing is on the way to or from a device, each of
its writes has been answered, its view is the record of the server, Home has asked for the sources
of this record last, and each text and each list that the user has not touched is that of this
record. So all such devices show the same. -/
theorem devices_converge {t : Devices} (hrun : Machine.run step (start record) es = some t)
    {d : Device} (hd : t.devices[i]? = some d) (hsettled : t.Settled d) :
    answered (start record) es i = made (start record) es i ∧ Shows t.server es i d.app := by
  have hconsistent := consistent_run hrun
  obtain ⟨inbox, h⟩ := hconsistent.linked i d hd
  have hlearnt := h.learnt
  rw [hsettled.seen] at hlearnt
  have hview : d.app.view = t.server := by
    rw [server, hconsistent.record_eq]
    exact hlearnt.view_eq hsettled.answered
  refine ⟨by rw [h.made, hsettled.answered, List.append_nil], ?_⟩
  rw [← hview]
  exact ((allRan_run hrun).ran i d hd).shows hsettled.received hsettled.answered

/-- Both devices save a source, and the server accepts both saves. The connection of the second ends
before the answer, and its save is sent again and rejected. -/
def sharing : List Event :=
  [.enter newYear2020, .enter newYear2020] ++
    (App.selecting ++ [App.Event.sources 0 .done]).map (.act 0) ++
    (App.selecting ++ [App.Event.sources 0 .done]).map (.act 1) ++
    [.decide 0 true, .receive 1, .decide 1 true, .reconnect 1, .decide 2 false, .receive 1,
      .receive 1] ++
    [App.Event.deliver 0, .deliver 0, .deliver 1, .deliver 1, .deliver 2].map (.act 1)

theorem devices_converge_sharing : ∃ t d,
    Machine.run step (start postInfo) sharing = some t ∧ t.devices[1]? = some d ∧ t.Settled d ∧
      answered (start postInfo) sharing 1 = made (start postInfo) sharing 1 ∧
      Shows t.server sharing 1 d.app := by
  refine ⟨_, _, rfl, rfl, ⟨rfl, rfl, by decide⟩, ?_⟩
  exact @devices_converge postInfo sharing 1 _ rfl _ rfl ⟨rfl, rfl, by decide⟩

/-! ## The completeness checks -/

open App (AppRecord Registered)

/-- For every run of any number of devices of a registered account: the record of the server has no
country and no city, no completeness check traps or finds a complete profile, and each performs the
profile segue for every snapshot that it receives. -/
theorem devices_always_ask (h : Registered record) {t : Devices}
    (hrun : Machine.run step (start record) es = some t) :
    AppRecord t.server ∧ ∀ d ∈ t.devices, d.app.trapped = none ∧
      d.app.profileSegues.length = d.app.received.length ∧
      ∀ value ∈ d.app.received, isUserProfileEmpty value ≠ .ok (some false) := by
  have hall := allRan_run hrun
  have hkept : Kept ScreenWrite Registered := fun v w hv hw =>
    App.kept_registered v w hv (.screen w hw)
  refine ⟨?_, fun d hd => ?_⟩
  · rw [server, hall.record_eq]
    exact ((reachable_after hall.log).kept hkept h).1
  · obtain ⟨i, hi⟩ := List.mem_iff_getElem?.mp hd
    obtain ⟨value, today, fs, hvalue, hrun', hserver, -⟩ := hall.ran i d hi
    obtain ⟨⟨htrapped, hsegues⟩, hseen, -⟩ := App.run_of_seen App.kept_registered .screen
      (I := App.AllPresented) hrun' (fun e he => (hserver e he).keeps hkept h)
      (fun _ _ _ _ hs _ hact hi => hi.act hs hact) ⟨rfl, rfl⟩
      (App.seen_enter App.kept_registered ⟨hvalue.kept hkept h, by simp⟩ today)
      (App.sound_enter _ today)
    exact ⟨htrapped, hsegues, fun value hv => (hseen.received value hv).1.noPlace.not_complete⟩

theorem devices_always_ask_saving : ∃ t, Machine.run step (start postInfo) saving = some t ∧
    AppRecord t.server ∧ ∀ d ∈ t.devices, d.app.trapped = none ∧
      d.app.profileSegues.length = d.app.received.length ∧
      ∀ value ∈ d.app.received, isUserProfileEmpty value ≠ .ok (some false) :=
  ⟨_, rfl, @devices_always_ask postInfo saving App.registered_postInfo _ rfl⟩

end Devices
end MyNews
