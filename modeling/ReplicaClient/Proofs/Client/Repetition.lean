import ReplicaClient.Proofs.Client.Recorder

/-!
# Repeated requests

A caller on its own whose writes are put on record, each for the request it belongs to.  Whatever
the peer does, no request is written more than twice, and only a request whose connection has ended
before the first octet of a reply is written again, to a connection that did not exist before.
-/

namespace ReplicaClient

/-- Sending a request leaves connections alone that others hold. -/
theorem Client.channel_send {c : Client} {size : Nat} {held : List Held} (h : c.Custody size held)
    {x : Held} (hx : x ∈ held) (code : MessageCode) (frame : Bytes) :
    (c.send code frame).2.network.channel x.connection.channel =
      c.network.channel x.connection.channel := by
  have hmoves := Session.acquire_moves c held
  have hrange := h.channel_range_of_held hx
  unfold send
  rcases hacquire : c.acquire with ⟨e | k, c'⟩
  · rw [hacquire] at hmoves
    exact hmoves.grows.channel_eq hrange.1 hrange.2
  · rw [hacquire] at hmoves
    have hcustody : c'.Custody size (held ++ [k]) := hmoves.custody h
    have hsame : c'.network.channel x.connection.channel = c.network.channel x.connection.channel :=
      hmoves.grows.channel_eq hrange.1 hrange.2
    have hk := hcustody.channel_range_of_held (List.mem_append_right _ (List.mem_singleton_self k))
    have hne := hcustody.channel_ne_of_new hx (List.mem_singleton_self k)
    dsimp only
    rw [← hsame]
    rcases c'.network.send_cases k.connection.channel frame with ⟨-, heq⟩ | ⟨fault, heq⟩ | ⟨-, heq⟩
    · rw [heq]
    · rw [heq]
      exact congrArg (Network.channel · x.connection.channel) (network_settle _ _ _)
    · rw [heq]
      exact Network.channel_setChannel_of_ne hk.1 hrange.1 (Ne.symm hne) _

/-- Sending a request and reading its reply at once is an exchange. -/
theorem Caller.client_exchange (s : Caller) (code : MessageCode) (frame : Bytes)
    (reading : Reading) :
    (s.run [.send code frame, .read s.pending.length reading]).client =
      (s.client.exchange code frame reading).2 := by
  simp only [Caller.run, List.foldl_cons, List.foldl_nil, Caller.step, Caller.send, Client.exchange,
    Caller.onPending]
  rcases s.client.send code frame with ⟨e | p, c⟩
  · simp
  · simp [Caller.read]

/-- A caller whose requests are numbered in the order in which it sends them. -/
structure Outbox where
  recorder : Recorder
  pending : List (Nat × Client.Pending) := []
  issued : Nat := 0

namespace Outbox

def new (config : Config) (environment : Environment) : Outbox :=
  { recorder := { client := .new config environment } }

def client (o : Outbox) : Client :=
  o.recorder.client

/-- The caller without numbers and records. -/
def caller (o : Outbox) : Caller :=
  { client := o.client, pending := o.pending.map Prod.snd }

/-- All that has been written for a request. -/
def writesOf (o : Outbox) (n : Nat) : List Write :=
  o.recorder.writes.filter (·.request = n)

def send (o : Outbox) (code : MessageCode) (frame : Bytes) : Outbox :=
  match o.recorder.send o.issued code frame with
  | (.error _, recorder) => { o with recorder, issued := o.issued + 1 }
  | (.ok p, recorder) =>
      { recorder, pending := o.pending ++ [(o.issued, p)], issued := o.issued + 1 }

def read (o : Outbox) (i : Nat) (x : Nat × Client.Pending) (reading : Reading) : Outbox :=
  let (result, held, recorder) := o.recorder.readReply x.1 x.2 reading
  { o with
    recorder := { recorder with client := recorder.client.settle held (Client.outcome result) }
    pending := o.pending.eraseIdx i }

def abandon (o : Outbox) (i : Nat) (x : Nat × Client.Pending) : Outbox :=
  { o with
    recorder := { o.recorder with client := o.client.abandon x.2 }
    pending := o.pending.eraseIdx i }

/-- Nothing happens where no request waits. -/
def onPending (o : Outbox) (i : Nat) (f : Nat × Client.Pending → Outbox) : Outbox :=
  match o.pending[i]? with
  | none => o
  | some x => f x

def step (o : Outbox) : Caller.Action → Outbox
  | .connect => { o with recorder := { o.recorder with client := o.client.connect.2 } }
  | .close => { o with recorder := { o.recorder with client := o.client.close } }
  | .send code frame => o.send code frame
  | .read i reading => o.onPending i fun x ↦ o.read i x reading
  | .abandon i => o.onPending i fun x ↦ o.abandon i x

def run (o : Outbox) (actions : List Caller.Action) : Outbox :=
  actions.foldl step o

/-! ## Without the record -/

theorem caller_send (o : Outbox) (code : MessageCode) (frame : Bytes) :
    (o.send code frame).caller = o.caller.send code frame := by
  have hclient := o.recorder.client_send o.issued code frame
  unfold send Caller.send
  change (_, _) = o.caller.client.send code frame at hclient
  rw [← hclient]
  rcases o.recorder.send o.issued code frame with ⟨e | p, recorder⟩
  · rfl
  · simp only [caller, client, List.map_append]
    rfl

theorem caller_read (o : Outbox) (i : Nat) (x : Nat × Client.Pending) (reading : Reading) :
    (o.read i x reading).caller = o.caller.read i x.2 reading := by
  have hclient := o.recorder.client_readReply x.1 x.2 reading
  unfold read Caller.read
  change (_, _, _) = o.caller.client.readReply x.2 reading at hclient
  rw [← hclient]
  simp only [caller, client, List.eraseIdx_map]

theorem caller_step (o : Outbox) (a : Caller.Action) : (o.step a).caller = o.caller.step a := by
  have honPending {i : Nat} {f : Nat × Client.Pending → Outbox} {g : Client.Pending → Caller}
      (hf : ∀ x, (f x).caller = g x.2) : (o.onPending i f).caller = o.caller.onPending i g := by
    unfold onPending Caller.onPending caller
    rw [List.getElem?_map]
    cases o.pending[i]? with
    | none => rfl
    | some x => exact hf x
  cases a with
  | connect => rfl
  | close => rfl
  | send code frame => exact o.caller_send code frame
  | read i reading => exact honPending fun x ↦ o.caller_read i x reading
  | abandon i =>
      refine honPending fun x ↦ ?_
      simp only [abandon, Caller.abandon, caller, client, List.eraseIdx_map]

theorem caller_run (o : Outbox) (actions : List Caller.Action) :
    (o.run actions).caller = o.caller.run actions := by
  induction actions generalizing o with
  | nil => rfl
  | cons a actions ih =>
      exact (ih (o.step a)).trans (congrArg (Caller.run · actions) (o.caller_step a))

/-! ## What an action writes -/

/-- The write that a request has made when it was sent. -/
def firstWrite (x : Nat × Client.Pending) : Write :=
  ⟨x.1, x.2.held.connection.channel, x.2.frame⟩

/-- The action sends the request, or reads the reply to it. -/
def Concerns (o : Outbox) (n : Nat) : Caller.Action → Prop
  | .send _ _ => n = o.issued
  | .read i _ => (o.pending[i]?).map Prod.fst = some n
  | _ => False

variable {o o' : Outbox} {n m : Nat} {ws : List Write}

theorem writesOf_of_writes_eq (h : o'.recorder.writes = o.recorder.writes) (n : Nat) :
    o'.writesOf n = o.writesOf n := by
  rw [writesOf, h, writesOf]

theorem writesOf_of_append (w : Write) (h : o'.recorder.writes = o.recorder.writes ++ [w]) :
    o'.writesOf w.request = o.writesOf w.request ++ [w] := by
  rw [writesOf, h, List.filter_append, List.filter_singleton]
  simp [writesOf]

theorem writesOf_of_append_of_ne {w : Write} (h : o'.recorder.writes = o.recorder.writes ++ [w])
    (hne : w.request ≠ n) : o'.writesOf n = o.writesOf n := by
  rw [writesOf, h, List.filter_append, List.filter_singleton]
  simp [writesOf, hne]

/-- Sending a request writes its frame once or not at all, and a request waits only if its frame has
been written. -/
theorem send_cases (o : Outbox) (code : MessageCode) (frame : Bytes) :
    (o.send code frame).issued = o.issued + 1 ∧
    (((o.send code frame).recorder.writes = o.recorder.writes ∧
        (o.send code frame).pending = o.pending) ∨
      (∃ k, (o.send code frame).recorder.writes = o.recorder.writes ++ [⟨o.issued, k, frame⟩] ∧
        (o.send code frame).pending = o.pending) ∨
      ∃ p, p.frame = frame ∧
        (o.send code frame).recorder.writes = o.recorder.writes ++ [firstWrite (o.issued, p)] ∧
        (o.send code frame).pending = o.pending ++ [(o.issued, p)]) := by
  have hwrites := o.recorder.writes_send o.issued code frame
  unfold send
  rcases hsend : o.recorder.send o.issued code frame with ⟨e | p, recorder⟩
  · rw [hsend] at hwrites
    refine ⟨rfl, ?_⟩
    rcases hwrites with ⟨-, hsame⟩ | ⟨-, k, hone⟩ | ⟨p, heq, -⟩
    · exact Or.inl ⟨hsame, rfl⟩
    · exact Or.inr (Or.inl ⟨k, hone, rfl⟩)
    · cases heq
  · rw [hsend] at hwrites
    refine ⟨rfl, Or.inr (Or.inr ?_)⟩
    rcases hwrites with ⟨⟨e, heq⟩, -⟩ | ⟨⟨e, heq⟩, -⟩ | ⟨p', heq, hframe, hone⟩
    · cases heq
    · cases heq
    · cases heq
      subst hframe
      exact ⟨p, rfl, hone, rfl⟩

theorem onPending_of_none {i : Nat} (hi : o.pending[i]? = none)
    (f : Nat × Client.Pending → Outbox) : o.onPending i f = o := by
  rw [onPending, hi]

theorem onPending_of_some {i : Nat} {x : Nat × Client.Pending} (hi : o.pending[i]? = some x)
    (f : Nat × Client.Pending → Outbox) : o.onPending i f = f x := by
  rw [onPending, hi]

theorem writes_read (o : Outbox) (i : Nat) (x : Nat × Client.Pending) (reading : Reading) :
    (o.read i x reading).recorder.writes = (o.recorder.readReply x.1 x.2 reading).2.2.writes :=
  rfl

/-- Only requests that are sent join those that wait, under a new number. -/
theorem pending_step (o : Outbox) (a : Caller.Action) :
    o.issued ≤ (o.step a).issued ∧ ∀ x ∈ (o.step a).pending, x ∈ o.pending ∨ x.1 = o.issued := by
  have honPending {i : Nat} {f : Nat × Client.Pending → Outbox}
      (hf : ∀ x, (f x).issued = o.issued ∧ (f x).pending = o.pending.eraseIdx i) :
      o.issued ≤ (o.onPending i f).issued ∧
        ∀ x ∈ (o.onPending i f).pending, x ∈ o.pending ∨ x.1 = o.issued := by
    cases hi : o.pending[i]? with
    | none =>
        rw [onPending_of_none hi]
        exact ⟨Nat.le_refl _, fun x hx ↦ Or.inl hx⟩
    | some x =>
        rw [onPending_of_some hi, (hf x).1, (hf x).2]
        exact ⟨Nat.le_refl _, fun y hy ↦ Or.inl (List.mem_of_mem_eraseIdx hy)⟩
  cases a with
  | connect => exact ⟨Nat.le_refl _, fun x hx ↦ Or.inl hx⟩
  | close => exact ⟨Nat.le_refl _, fun x hx ↦ Or.inl hx⟩
  | read i reading => exact honPending fun x ↦ ⟨rfl, rfl⟩
  | abandon i => exact honPending fun x ↦ ⟨rfl, rfl⟩
  | send code frame =>
      obtain ⟨hissued, hcases⟩ := o.send_cases code frame
      refine ⟨by rw [step, hissued]; exact Nat.le_succ _, fun x hx ↦ ?_⟩
      rw [step] at hx
      rcases hcases with ⟨-, hpending⟩ | ⟨k, -, hpending⟩ | ⟨p, -, -, hpending⟩
      · exact Or.inl (hpending ▸ hx)
      · exact Or.inl (hpending ▸ hx)
      · rw [hpending] at hx
        rcases List.mem_append.mp hx with hx | hx
        · exact Or.inl hx
        · exact Or.inr (congrArg Prod.fst (List.mem_singleton.mp hx))

theorem network_read (o : Outbox) (i : Nat) (x : Nat × Client.Pending) (reading : Reading) :
    (o.read i x reading).client.network =
      (o.recorder.readReply x.1 x.2 reading).2.2.client.network := by
  rw [client, read]
  exact Client.network_settle _ _ _

/-- Reading a reply writes the frame of the request once more, or nothing. -/
theorem writes_read_cases (o : Outbox) (i : Nat) (x : Nat × Client.Pending) (reading : Reading) :
    (o.read i x reading).recorder.writes = o.recorder.writes ∨
    ∃ k, o.client.network.channels.length < k ∧
      (o.read i x reading).recorder.writes =
        o.recorder.writes ++ [{ firstWrite x with channel := k }] := by
  rw [writes_read]
  by_cases hended : (o.client.network.channel x.2.held.connection.channel).Ended
  · rcases Recorder.writes_readReply_of_ended x.1 reading hended with
      ⟨e, -, -, hsame⟩ | ⟨k, -, hlow, -, hone, -⟩
    · exact Or.inl hsame
    · exact Or.inr ⟨k.channel, hlow, hone⟩
  · exact Or.inl (Recorder.writes_readReply_of_not_ended x.1 reading hended)

/-- An action writes nothing for requests that it does not concern. -/
theorem writesOf_step {a : Caller.Action} (h : ¬o.Concerns n a) :
    (o.step a).writesOf n = o.writesOf n := by
  cases a with
  | connect => rfl
  | close => rfl
  | abandon i =>
      rw [step]
      cases hi : o.pending[i]? with
      | none => rw [onPending_of_none hi]
      | some x =>
          rw [onPending_of_some hi]
          rfl
  | send code frame =>
      obtain ⟨-, ⟨hsame, -⟩ | ⟨k, hone, -⟩ | ⟨p, -, hone, -⟩⟩ := o.send_cases code frame
      · exact writesOf_of_writes_eq hsame n
      · exact writesOf_of_append_of_ne hone fun hn ↦ h hn.symm
      · exact writesOf_of_append_of_ne hone fun hn ↦ h hn.symm
  | read i reading =>
      rw [step]
      cases hi : o.pending[i]? with
      | none => rw [onPending_of_none hi]
      | some x =>
          rw [onPending_of_some hi]
          rcases o.writes_read_cases i x reading with hsame | ⟨k, -, hone⟩
          · exact writesOf_of_writes_eq hsame n
          · refine writesOf_of_append_of_ne hone fun hn ↦ h ?_
            rw [Concerns, hi]
            exact congrArg some hn

/-! ## What holds of every request -/

/-- At most two writes, and if there are two, one frame to two connections. -/
def Modest (ws : List Write) : Prop :=
  ws = [] ∨ (∃ w, ws = [w]) ∨ ∃ w k, w.channel < k ∧ ws = [w, { w with channel := k }]

/-- Requests keep their numbers, and one that waits has written its frame once. -/
structure Orderly (size : Nat) (o : Outbox) : Prop where
  sound : Caller.Sound size o.caller
  complete : o.recorder.Complete
  nodup : (o.pending.map Prod.fst).Nodup
  pending_lt : ∀ x ∈ o.pending, x.1 < o.issued
  written_lt : ∀ w ∈ o.recorder.writes, w.request < o.issued
  waiting : ∀ x ∈ o.pending, o.writesOf x.1 = [firstWrite x]
  modest : ∀ n, Modest (o.writesOf n)

namespace Orderly

variable {size : Nat} {i : Nat} {x : Nat × Client.Pending}

theorem new (config : Config) (environment : Environment) :
    Orderly config.poolSize (new config environment) where
  sound := .new config environment
  complete := List.Sublist.refl _
  nodup := List.nodup_nil
  pending_lt := nofun
  written_lt := nofun
  waiting := nofun
  modest _ := Or.inl rfl

theorem writesOf_issued (h : Orderly size o) : o.writesOf o.issued = [] := by
  rw [writesOf, List.filter_eq_nil_iff]
  intro w hw
  have hlt := h.written_lt w hw
  simp only [decide_eq_true_eq]
  omega

theorem channel_range (h : Orderly size o) (hx : x ∈ o.pending) :
    0 < x.2.held.connection.channel ∧
      x.2.held.connection.channel ≤ o.client.network.channels.length :=
  h.sound.custody.channel_range_of_held (List.mem_map_of_mem (List.mem_map_of_mem hx))

/-- What becomes of the requests if nothing is written and some wait no longer. -/
theorem shrink (h : Orderly size o) (hsound : Caller.Sound size o'.caller)
    (hcomplete : o'.recorder.Complete) (hwrites : o'.recorder.writes = o.recorder.writes)
    (hpending : o'.pending.Sublist o.pending) (hissued : o.issued ≤ o'.issued) :
    Orderly size o' where
  sound := hsound
  complete := hcomplete
  nodup := (hpending.map _).nodup h.nodup
  pending_lt x hx := Nat.lt_of_lt_of_le (h.pending_lt x (hpending.mem hx)) hissued
  written_lt w hw := Nat.lt_of_lt_of_le (h.written_lt w (hwrites ▸ hw)) hissued
  waiting x hx := (writesOf_of_writes_eq hwrites x.1).trans (h.waiting x (hpending.mem hx))
  modest n := writesOf_of_writes_eq hwrites n ▸ h.modest n

theorem ne_of_mem_eraseIdx (h : Orderly size o) (hi : o.pending[i]? = some x)
    {y : Nat × Client.Pending} (hy : y ∈ o.pending.eraseIdx i) : x.1 ≠ y.1 := by
  have hnodup := ((perm_cons_eraseIdx hi).map Prod.fst).nodup h.nodup
  rw [List.map_cons, List.nodup_cons] at hnodup
  exact fun heq ↦ hnodup.1 (heq ▸ List.mem_map_of_mem hy)

theorem send (h : Orderly size o) (code : MessageCode) (frame : Bytes)
    (hsound : Caller.Sound size (o.send code frame).caller)
    (hcomplete : (o.send code frame).recorder.Complete) : Orderly size (o.send code frame) := by
  have hnone := h.writesOf_issued
  obtain ⟨hissued, hcases⟩ := o.send_cases code frame
  have hle : o.issued ≤ (o.send code frame).issued := by omega
  have hwritten {w : Write} (hw : w.request = o.issued)
      (hone : (o.send code frame).recorder.writes = o.recorder.writes ++ [w]) :
      ∀ w ∈ (o.send code frame).recorder.writes, w.request < (o.send code frame).issued := by
    intro w' hw'
    rw [hone] at hw'
    rcases List.mem_append.mp hw' with hw' | hw'
    · exact Nat.lt_of_lt_of_le (h.written_lt w' hw') hle
    · obtain rfl := List.mem_singleton.mp hw'
      omega
  have hmodest {w : Write} (hw : w.request = o.issued)
      (hone : (o.send code frame).recorder.writes = o.recorder.writes ++ [w]) (n : Nat) :
      Modest ((o.send code frame).writesOf n) := by
    by_cases hn : w.request = n
    · subst hn
      rw [writesOf_of_append _ hone, hw, hnone]
      exact Or.inr (Or.inl ⟨w, rfl⟩)
    · rw [writesOf_of_append_of_ne hone hn]
      exact h.modest n
  have hwaiting {w : Write} (hw : w.request = o.issued)
      (hone : (o.send code frame).recorder.writes = o.recorder.writes ++ [w]) :
      ∀ x ∈ o.pending, (o.send code frame).writesOf x.1 = [firstWrite x] := by
    intro x hx
    have hlt := h.pending_lt x hx
    rw [writesOf_of_append_of_ne hone (by omega)]
    exact h.waiting x hx
  rcases hcases with ⟨hsame, hpending⟩ | ⟨k, hone, hpending⟩ | ⟨p, -, hone, hpending⟩
  · exact h.shrink hsound hcomplete hsame (hpending ▸ List.Sublist.refl _) hle
  · refine ⟨hsound, hcomplete, hpending ▸ h.nodup, ?_, hwritten rfl hone, ?_, hmodest rfl hone⟩
    · intro x hx
      rw [hpending] at hx
      exact Nat.lt_of_lt_of_le (h.pending_lt x hx) hle
    · rw [hpending]
      exact hwaiting rfl hone
  · refine ⟨hsound, hcomplete, ?_, ?_, hwritten rfl hone, ?_, hmodest rfl hone⟩
    · rw [hpending, List.map_append, List.nodup_append]
      refine ⟨h.nodup, List.pairwise_singleton _ _, ?_⟩
      intro a ha b hb
      obtain ⟨x, hx, rfl⟩ := List.mem_map.mp ha
      obtain rfl := List.mem_singleton.mp hb
      exact Nat.ne_of_lt (h.pending_lt x hx)
    · intro x hx
      rw [hpending] at hx
      rcases List.mem_append.mp hx with hx | hx
      · exact Nat.lt_of_lt_of_le (h.pending_lt x hx) hle
      · obtain rfl := List.mem_singleton.mp hx
        omega
    · intro x hx
      rw [hpending] at hx
      rcases List.mem_append.mp hx with hx | hx
      · exact hwaiting rfl hone x hx
      · obtain rfl := List.mem_singleton.mp hx
        refine (writesOf_of_append _ hone).trans ?_
        rw [show (firstWrite (o.issued, p)).request = o.issued from rfl, hnone]
        rfl

theorem read (h : Orderly size o) (hi : o.pending[i]? = some x) (reading : Reading)
    (hsound : Caller.Sound size (o.read i x reading).caller)
    (hcomplete : (o.read i x reading).recorder.Complete) : Orderly size (o.read i x reading) := by
  have hx : x ∈ o.pending := List.mem_of_getElem? hi
  have hsub : (o.pending.eraseIdx i).Sublist o.pending := List.eraseIdx_sublist _ _
  rcases o.writes_read_cases i x reading with hsame | ⟨k, hlow, hone⟩
  · exact h.shrink hsound hcomplete hsame hsub (Nat.le_refl _)
  · refine ⟨hsound, hcomplete, (hsub.map _).nodup h.nodup, ?_, ?_, ?_, ?_⟩
    · exact fun y hy ↦ h.pending_lt y (hsub.mem hy)
    · intro w hw
      rw [hone] at hw
      rcases List.mem_append.mp hw with hw | hw
      · exact h.written_lt w hw
      · obtain rfl := List.mem_singleton.mp hw
        exact h.pending_lt x hx
    · intro y hy
      rw [writesOf_of_append_of_ne hone (h.ne_of_mem_eraseIdx hi hy)]
      exact h.waiting y (hsub.mem hy)
    · intro n
      by_cases hn : x.1 = n
      · subst hn
        refine Or.inr (Or.inr ⟨firstWrite x, k, ?_, ?_⟩)
        · exact Nat.lt_of_le_of_lt (h.channel_range hx).2 hlow
        · refine (writesOf_of_append _ hone).trans ?_
          rw [show ({ firstWrite x with channel := k } : Write).request = x.1 from rfl,
            h.waiting x hx]
          rfl
      · rw [writesOf_of_append_of_ne hone hn]
        exact h.modest n

theorem step (h : Orderly size o) (a : Caller.Action) : Orderly size (o.step a) := by
  have hsound : Caller.Sound size (o.step a).caller := o.caller_step a ▸ h.sound.step a
  cases a with
  | connect =>
      have hgrows : o.client.network.Grows o.client.connect.2.network :=
        (Session.connect_moves o.client []).grows
      exact h.shrink hsound (h.complete.withClient hgrows.received) rfl (List.Sublist.refl _)
        (Nat.le_refl _)
  | close =>
      exact h.shrink hsound (h.complete.withClient rfl) rfl (List.Sublist.refl _) (Nat.le_refl _)
  | send code frame =>
      refine h.send code frame hsound ?_
      have hcomplete := h.complete.send o.issued code frame
      unfold Outbox.send
      rcases hsend : o.recorder.send o.issued code frame with ⟨e | p, recorder⟩ <;>
        (rw [hsend] at hcomplete; exact hcomplete)
  | read i reading =>
      cases hi : o.pending[i]? with
      | none =>
          rw [Outbox.step, onPending_of_none hi]
          exact h
      | some x =>
          rw [Outbox.step, onPending_of_some hi] at hsound ⊢
          refine h.read hi reading hsound ?_
          exact (h.complete.readReply x.1 x.2 reading).withClient
            (congrArg _ (Client.network_settle _ _ _))
  | abandon i =>
      cases hi : o.pending[i]? with
      | none =>
          rw [Outbox.step, onPending_of_none hi]
          exact h
      | some x =>
          rw [Outbox.step, onPending_of_some hi] at hsound ⊢
          exact h.shrink hsound (h.complete.withClient rfl) rfl (List.eraseIdx_sublist _ _)
            (Nat.le_refl _)

theorem run (h : Orderly size o) (actions : List Caller.Action) : Orderly size (o.run actions) := by
  induction actions generalizing o with
  | nil => exact h
  | cons a actions ih => exact ih (h.step a)

/-- A request that neither waits nor is still to be sent is never written again. -/
theorem writesOf_run (h : Orderly size o) (hn : n < o.issued) (hover : n ∉ o.pending.map Prod.fst)
    (future : List Caller.Action) : (o.run future).writesOf n = o.writesOf n := by
  induction future generalizing o with
  | nil => rfl
  | cons a future ih =>
      have hquiet : ¬o.Concerns n a := by
        cases a with
        | send code frame => exact Nat.ne_of_lt hn
        | read i reading =>
            intro hconcerns
            obtain ⟨x, hi, rfl⟩ := Option.map_eq_some_iff.mp hconcerns
            exact hover (List.mem_map_of_mem (List.mem_of_getElem? hi))
        | connect => exact id
        | close => exact id
        | abandon i => exact id
      obtain ⟨hissued, hpending⟩ := o.pending_step a
      have hover' : n ∉ (o.step a).pending.map Prod.fst := by
        intro hmem
        obtain ⟨x, hx, rfl⟩ := List.mem_map.mp hmem
        rcases hpending x hx with hx | hx
        · exact hover (List.mem_map_of_mem hx)
        · omega
      exact (ih (h.step a) (Nat.lt_of_lt_of_le hn hissued) hover').trans (writesOf_step hquiet)

end Orderly

/-! ## The connection of a request that waits -/

/-- Until its reply is read, nothing is taken from the connection of a request and nothing is added
to it. -/
theorem channel_step {size : Nat} (h : Orderly size o) {x : Nat × Client.Pending}
    (hx : x ∈ o.pending) {a : Caller.Action} (hstill : x ∈ (o.step a).pending) :
    (o.step a).client.network.channel x.2.held.connection.channel =
      o.client.network.channel x.2.held.connection.channel := by
  have hheld : x.2.held ∈ Caller.held o.caller.pending :=
    List.mem_map_of_mem (List.mem_map_of_mem hx)
  have hrange := h.channel_range hx
  cases a with
  | close => rfl
  | connect =>
      exact (Session.connect_moves o.client []).grows.channel_eq hrange.1 hrange.2
  | send code frame =>
      have hclient : (o.send code frame).client = (o.client.send code frame).2 := by
        have hcaller := congrArg Caller.client (o.caller_send code frame)
        refine hcaller.trans ?_
        unfold Caller.send
        rcases hsend : o.caller.client.send code frame with ⟨e | p, c⟩ <;>
          (change c = (o.caller.client.send code frame).2; rw [hsend])
      rw [step, hclient]
      exact Client.channel_send h.sound.custody hheld code frame
  | abandon i =>
      rw [step]
      cases hi : o.pending[i]? with
      | none => rw [onPending_of_none hi]
      | some y =>
          rw [onPending_of_some hi]
          rfl
  | read i reading =>
      rw [step] at hstill ⊢
      cases hi : o.pending[i]? with
      | none => rw [onPending_of_none hi]
      | some y =>
          rw [onPending_of_some hi] at hstill ⊢
          have hnetwork : (o.read i y reading).client.network =
              (o.client.readReply y.2 reading).2.2.network :=
            (o.network_read i y reading).trans
              (congrArg (·.2.2.network) (o.recorder.client_readReply y.1 y.2 reading))
          have hother : x.2.held ∈ (Caller.held o.caller.pending).eraseIdx i := by
            rw [Caller.held, caller, List.eraseIdx_map, List.eraseIdx_map]
            exact List.mem_map_of_mem (List.mem_map_of_mem hstill)
          have hat : (Caller.held o.caller.pending)[i]? = some y.2.held := by
            simp only [Caller.held, caller, List.getElem?_map, hi, Option.map_some]
          have hne := h.sound.custody.channel_ne_of_held hat hother
          rw [hnetwork]
          exact (o.client.readReply_reads y.2 reading).channel_eq
            (h.channel_range (List.mem_of_getElem? hi)).1 hrange.1 hrange.2 hne

/-! ## The whole of it -/

/-- What reading the reply to a waiting request writes.  The request is written again only if its
connection has ended before the first octet of a reply, and then the second connection has the last
word. -/
structure Rereads (o : Outbox) (i : Nat) (x : Nat × Client.Pending) (reading : Reading) :
    Prop where
  begun : ¬(o.client.network.channel x.2.held.connection.channel).Ended →
    (o.step (.read i reading)).writesOf x.1 = [firstWrite x]
  ended : (o.client.network.channel x.2.held.connection.channel).Ended →
    (∃ e, o.client.dial.1 = .error e ∧ (o.client.readReply x.2 reading).1 = .error e ∧
      (o.step (.read i reading)).writesOf x.1 = [firstWrite x]) ∨
    ∃ k, o.client.dial.1 = .ok k ∧ o.client.network.channels.length < k.channel ∧
      k.channel ≤ (o.step (.read i reading)).client.network.channels.length ∧
      (o.step (.read i reading)).writesOf x.1 =
        [firstWrite x, { firstWrite x with channel := k.channel }] ∧
      ((o.client.network.firstReply k.channel x.2.frame).Ended →
        (o.client.readReply x.2 reading).1 = .error .connectionClosed)

theorem Orderly.rereads {size : Nat} (h : Orderly size o) {i : Nat} {x : Nat × Client.Pending}
    (hi : o.pending[i]? = some x) (reading : Reading) : o.Rereads i x reading := by
  have hfirst := h.waiting x (List.mem_of_getElem? hi)
  have hstep : o.step (.read i reading) = o.read i x reading := by
    rw [Outbox.step, onPending_of_some hi]
  have hresult : (o.recorder.readReply x.1 x.2 reading).1 = (o.client.readReply x.2 reading).1 :=
    congrArg Prod.fst (o.recorder.client_readReply x.1 x.2 reading)
  constructor
  · intro hbegun
    rw [hstep, ← hfirst]
    exact writesOf_of_writes_eq (Recorder.writes_readReply_of_not_ended x.1 reading hbegun) _
  · intro hended
    rw [hstep]
    rcases Recorder.writes_readReply_of_ended x.1 reading hended with
      ⟨e, hdial, herror, hsame⟩ | ⟨k, hdial, hlow, hhigh, hone, hlast⟩
    · left
      refine ⟨e, hdial, hresult.symm.trans herror, ?_⟩
      rw [← hfirst]
      exact writesOf_of_writes_eq hsame _
    · right
      refine ⟨k, hdial, hlow, ?_, ?_, fun h ↦ hresult.symm.trans (hlast h)⟩
      · rw [network_read]
        exact hhigh
      · have htwo : (o.read i x reading).writesOf x.1 =
            o.writesOf x.1 ++ [⟨x.1, k.channel, x.2.frame⟩] :=
          writesOf_of_append ⟨x.1, k.channel, x.2.frame⟩ hone
        rw [htwo, hfirst]
        rfl

/-- What holds in a state, of all that has been written and of all that may come. -/
structure Sparing (o : Outbox) : Prop where
  /-- Nothing reaches the peer but what is on record. -/
  complete : o.client.network.received.Sublist
    (o.recorder.writes.map fun w ↦ (w.channel, w.frame))
  modest : ∀ n, Modest (o.writesOf n)
  /-- A request that is sent is written once at most, and one that waits for its reply has been
  written once. -/
  sending : ∀ code frame, (o.step (.send code frame)).writesOf o.issued = [] ∨
    ∃ k, (o.step (.send code frame)).writesOf o.issued = [⟨o.issued, k, frame⟩]
  waiting : ∀ x ∈ o.pending, o.writesOf x.1 = [firstWrite x]
  reading : ∀ i x, o.pending[i]? = some x → ∀ reading, o.Rereads i x reading
  /-- The connection of a request is left alone until its reply is read. -/
  untouched : ∀ x ∈ o.pending, ∀ a, x ∈ (o.step a).pending →
    (o.step a).client.network.channel x.2.held.connection.channel =
      o.client.network.channel x.2.held.connection.channel
  quiet : ∀ n a, ¬o.Concerns n a → (o.step a).writesOf n = o.writesOf n
  /-- Once the reply to a request has been read, whatever it was, or has been given up, nothing is
  written for the request any more. -/
  settled : ∀ n < o.issued, n ∉ o.pending.map Prod.fst →
    ∀ future, (o.run future).writesOf n = o.writesOf n
  /-- An exchange is a request whose reply is read at once. -/
  exchanging : ∀ code frame reading,
    (o.run [.send code frame, .read o.pending.length reading]).client =
      (o.client.exchange code frame reading).2

theorem Orderly.sparing {size : Nat} (h : Orderly size o) : o.Sparing where
  complete := h.complete
  modest := h.modest
  waiting := h.waiting
  reading _ _ hi := h.rereads hi
  untouched _ hx _ := channel_step h hx
  quiet _ _ := writesOf_step
  settled _ := h.writesOf_run
  exchanging code frame reading := by
    have hcaller := congrArg Caller.client
      (o.caller_run [.send code frame, .read o.pending.length reading])
    have hexchange := o.caller.client_exchange code frame reading
    rw [show o.caller.pending.length = o.pending.length from List.length_map _] at hexchange
    exact hcaller.trans hexchange
  sending code frame := by
    have hnone := h.writesOf_issued
    rw [Outbox.step]
    obtain ⟨-, ⟨hsame, -⟩ | ⟨k, hone, -⟩ | ⟨p, rfl, hone, -⟩⟩ := o.send_cases code frame
    · exact Or.inl ((writesOf_of_writes_eq hsame _).trans hnone)
    · have hwrites := writesOf_of_append _ hone
      rw [hnone] at hwrites
      exact Or.inr ⟨k, hwrites⟩
    · have hwrites := writesOf_of_append _ hone
      rw [show (firstWrite (o.issued, p)).request = o.issued from rfl, hnone] at hwrites
      exact Or.inr ⟨_, hwrites⟩

/-- In every run of a caller, whatever the peer does, requests are written sparingly. -/
theorem sparing_run (config : Config) (environment : Environment) (past : List Caller.Action) :
    ((new config environment).run past).caller = (Caller.new config environment).run past ∧
      ((new config environment).run past).Sparing :=
  ⟨(new config environment).caller_run past, ((Orderly.new config environment).run past).sparing⟩

/-- A peer that closes every connection instead of answering gets each frame twice. -/
example :
    let ping := Frame.encode (.request .ping) []
    let mute : Environment := { accepts := fun _ ↦ true, react := fun _ ↦ { ending := .closed } }
    ((new { poolSize := 1 } mute).run [.send (.request .ping) ping, .read 0 .acknowledgement]).writesOf
      0 = [⟨0, 1, ping⟩, ⟨0, 2, ping⟩] := by
  decide

end Outbox
end ReplicaClient
