import ReplicaClient.Proofs.Client.Triage

/-!
# A caller on its own

One caller connects and closes the pool, sends requests, reads their replies or leaves them unread.
Whatever the peer does, only the requests that wait for their replies take slots, and a caller that
waits for none never finds the pool used up.
-/

namespace ReplicaClient

structure Caller where
  client : Client
  pending : List Client.Pending := []

namespace Caller

/-- What a caller does.  A request that waits for its reply is named by its position. -/
inductive Action where
  | connect
  | close
  | send (code : MessageCode) (frame : Bytes)
  | read (i : Nat) (reading : Reading)
  | abandon (i : Nat)

def new (config : Config) (environment : Environment) : Caller :=
  { client := .new config environment }

def send (s : Caller) (code : MessageCode) (frame : Bytes) : Caller :=
  match s.client.send code frame with
  | (.error _, client) => { s with client }
  | (.ok p, client) => { client, pending := s.pending ++ [p] }

def read (s : Caller) (i : Nat) (p : Client.Pending) (reading : Reading) : Caller :=
  let (result, held, client) := s.client.readReply p reading
  { client := client.settle held (Client.outcome result), pending := s.pending.eraseIdx i }

def abandon (s : Caller) (i : Nat) (p : Client.Pending) : Caller :=
  { client := s.client.abandon p, pending := s.pending.eraseIdx i }

/-- Nothing happens where no request waits. -/
def onPending (s : Caller) (i : Nat) (f : Client.Pending → Caller) : Caller :=
  match s.pending[i]? with
  | none => s
  | some p => f p

def step (s : Caller) : Action → Caller
  | .connect => { s with client := s.client.connect.2 }
  | .close => { s with client := s.client.close }
  | .send code frame => s.send code frame
  | .read i reading => s.onPending i fun p ↦ s.read i p reading
  | .abandon i => s.onPending i fun p ↦ s.abandon i p

def run (s : Caller) (actions : List Action) : Caller :=
  actions.foldl step s

end Caller

/-! ## Pools at rest -/

namespace Pool

variable {p : Pool}

/-- No dial is under way, and only a pool that has slots is connected. -/
structure AtRest (p : Pool) : Prop where
  phase_ne : p.phase ≠ .connecting
  size_pos : p.phase = .connected → 0 < p.size

theorem size_pos_of_checkSize {u : Unit} (h : p.checkSize = .ok u) : 0 < p.size := by
  unfold checkSize at h
  split at h
  · cases h
  · omega

/-- Whoever has to wait finds a dial under way or all slots taken. -/
theorem wait_cases {p' : Pool} (h : p.request = (.wait, p')) :
    p.phase = .connecting ∨ p.phase = .connected ∧ p.idle = [] ∧ p.size ≤ p.opened := by
  rcases p.request_cases with
    ⟨k, rest, -, -, heq⟩ | ⟨-, -, -, heq⟩ | - | ⟨-, heq⟩
  · rw [heq] at h
    cases h
  · rw [heq] at h
    cases h
  · unfold request at h
    cases hphase : p.phase with
    | connecting => exact Or.inl rfl
    | uninitialized | closed => simp [hphase] at h
    | connected =>
        cases hidle : p.idle with
        | cons k rest => simp [hphase, hidle] at h
        | nil =>
            refine Or.inr ⟨rfl, rfl, Nat.le_of_not_lt fun hroom ↦ ?_⟩
            simp [hphase, hidle, hroom] at h
  · rw [heq] at h
    cases h

namespace AtRest

theorem ofConfig (config : Config) : (Pool.ofConfig config).AtRest :=
  ⟨nofun, nofun⟩

theorem close (h : p.AtRest) : p.close.AtRest := by
  rcases p.close_cases with ⟨heq, -⟩ | heq
  · rw [heq]
    exact h
  · rw [heq]
    exact ⟨nofun, nofun⟩

theorem teardown (h : p.AtRest) (g : Nat) : (p.teardown g).AtRest := by
  unfold Pool.teardown
  split
  · exact ⟨nofun, nofun⟩
  · exact h

theorem giveBack (h : p.AtRest) (held : Held) : (p.giveBack held).AtRest := by
  unfold Pool.giveBack release forget
  repeat' split
  all_goals exact ⟨h.phase_ne, h.size_pos⟩

end AtRest
end Pool

/-! ## Dials -/

/-- Everything but a wait in vain. -/
def ClientError.Prompt (e : ClientError) : Prop :=
  ∀ ms, e ≠ .acquireTimeout ms

namespace Client

variable {c c' : Client} {e : ClientError}

theorem prompt_of_checkAddress {addr : String} (h : Network.checkAddress addr = .error e) :
    e.Prompt := by
  unfold Network.checkAddress at h
  split at h
  · cases h
    nofun
  · split at h
    · cases h
      nofun
    · cases h

theorem prompt_of_openConnection (h : c.openConnection = (.error e, c')) : e.Prompt := by
  unfold openConnection Network.dial at h
  dsimp only at h
  repeat' split at h
  all_goals
    simp only [Except.map] at h
    cases h
    try nofun

theorem prompt_of_openConnections {count : Nat} (h : openConnections count c = (.error e, c')) :
    e.Prompt := by
  induction count generalizing c c' with
  | zero => cases h
  | succ count ih =>
      unfold openConnections at h
      split at h
      next hopen =>
        cases h
        exact prompt_of_openConnection hopen
      next c₁ hopen =>
        split at h
        next hrest =>
          cases h
          exact ih hrest
        next => cases h

theorem prompt_of_dial (h : c.dial = (.error e, c')) : e.Prompt := by
  unfold dial at h
  split at h
  next haddress =>
    cases h
    exact prompt_of_checkAddress haddress
  next => exact prompt_of_openConnection h

theorem prompt_of_dialAll (h : c.dialAll = (.error e, c')) : e.Prompt := by
  unfold dialAll at h
  split at h
  next haddress =>
    cases h
    exact prompt_of_checkAddress haddress
  next => exact prompt_of_openConnections h

/-- A pool that waits for its dial is left without connections or with all of them. -/
theorem establish_cases (hphase : c.pool.phase = .connecting) :
    (∃ e c', c.establish c.pool.generation = (.error e, c') ∧ e.Prompt ∧
      c'.pool.phase = .uninitialized) ∨
    ∃ c', c.establish c.pool.generation = (.ok (), c') ∧ c'.pool.phase = .connected ∧
      c'.pool.size = c.pool.size ∧ c'.pool.idle.length = c.config.poolSize := by
  have hawaits {c' : Client} {ks : List Connection} (hopens : c.Opens ks c') :
      c'.pool.awaits c.pool.generation = true := by
    have hphase' : c'.pool.phase = .connecting := by
      rw [hopens.pool]
      exact hphase
    simp [Pool.awaits, hopens.generation_eq, hphase']
  unfold establish
  rcases c.dialAll_cases with ⟨e, c', hdial, hopens⟩ | ⟨ks, c', hdial, hopens, hlen⟩
  · left
    rw [hdial]
    refine ⟨e, _, rfl, prompt_of_dialAll hdial, ?_⟩
    dsimp only
    rw [Pool.dialFailed, if_pos (hawaits hopens)]
  · right
    rw [hdial]
    refine ⟨_, rfl, ?_⟩
    dsimp only
    rw [Pool.install, if_pos (hawaits hopens)]
    exact ⟨rfl, hopens.size_eq, hlen⟩

theorem atRest_establish (hphase : c.pool.phase = .connecting) (hsize : 0 < c.pool.size) :
    (c.establish c.pool.generation).2.pool.AtRest := by
  rcases establish_cases hphase with ⟨e, c', heq, -, hphase'⟩ | ⟨c', heq, hphase', hsize', -⟩
  · rw [heq]
    exact ⟨by simp [hphase'], by simp [hphase']⟩
  · rw [heq]
    exact ⟨by simp [hphase'], fun _ ↦ hsize' ▸ hsize⟩

theorem atRest_connect (h : c.pool.AtRest) : c.connect.2.pool.AtRest := by
  unfold connect
  split
  · exact h
  next hcheck =>
    exact atRest_establish (c := { c with pool := c.pool.retire .connecting }) rfl
      (Pool.size_pos_of_checkSize hcheck)

/-! ## Getting a connection -/

theorem atRest_acquireConnected (h : c.pool.AtRest) : c.acquireConnected.2.pool.AtRest := by
  unfold acquireConnected
  rcases c.pool.request_cases with
    ⟨k, rest, -, -, heq⟩ | ⟨-, -, -, heq⟩ | heq | ⟨-, heq⟩
  · rw [heq]
    exact ⟨h.phase_ne, h.size_pos⟩
  · rw [heq]
    dsimp only
    unfold replace
    rcases dial_cases { c with pool := { c.pool with opened := c.pool.opened + 1 } } with
      ⟨e, c', hdial, hopens⟩ | ⟨k, c', hdial, hopens⟩
    · rw [hdial]
      dsimp only
      rw [hopens.pool, Pool.forget, if_pos rfl]
      exact ⟨h.phase_ne, h.size_pos⟩
    · rw [hdial]
      dsimp only
      rw [hopens.pool]
      exact ⟨h.phase_ne, h.size_pos⟩
  · rw [heq]
    exact h
  · rw [heq]
    exact h

theorem acquireConnected_timeout (hphase : c.pool.phase = .connected) {ms : Nat}
    (h : c.acquireConnected.1 = .error (.acquireTimeout ms)) :
    c.pool.idle = [] ∧ c.pool.size ≤ c.pool.opened := by
  unfold acquireConnected at h
  split at h
  · cases h
  next g pool hrequest =>
    exfalso
    unfold replace at h
    split at h
    next hdial =>
      cases h
      exact prompt_of_dial hdial ms rfl
    next => cases h
  next hrequest =>
    rcases c.pool.request_cases with
      ⟨k, rest, -, -, heq⟩ | ⟨-, -, -, heq⟩ | heq | ⟨hphase', -⟩
    · rw [heq] at hrequest
      cases hrequest
    · rw [heq] at hrequest
      cases hrequest
    · rw [heq] at hrequest
      cases hrequest
    · simp [hphase] at hphase'
  next hrequest =>
    rcases Pool.wait_cases hrequest with hphase' | ⟨-, hfull⟩
    · simp [hphase] at hphase'
    · exact hfull

/-- A caller waits in vain only if all slots are taken. -/
theorem acquire_spec (h : c.pool.AtRest) (hsize : c.pool.size = c.config.poolSize) :
    c.acquire.2.pool.AtRest ∧ ∀ ms, c.acquire.1 = .error (.acquireTimeout ms) →
      c.pool.idle = [] ∧ 0 < c.pool.size ∧ c.pool.size ≤ c.pool.opened := by
  unfold acquire
  rcases c.pool.request_cases with
    ⟨k, rest, hphase, hidle, heq⟩ | ⟨hphase, hidle, hroom, heq⟩ | heq | ⟨hphase, heq⟩
  · rw [heq]
    refine ⟨atRest_acquireConnected h, fun ms htimeout ↦ ?_⟩
    obtain ⟨hnone, hfull⟩ := acquireConnected_timeout hphase htimeout
    exact ⟨hnone, h.size_pos hphase, hfull⟩
  · rw [heq]
    refine ⟨atRest_acquireConnected h, fun ms htimeout ↦ ?_⟩
    obtain ⟨hnone, hfull⟩ := acquireConnected_timeout hphase htimeout
    exact ⟨hnone, h.size_pos hphase, hfull⟩
  · rw [heq]
    refine ⟨atRest_acquireConnected h, fun ms htimeout ↦ ?_⟩
    rcases Pool.wait_cases heq with hphase | ⟨hphase, hnone, hfull⟩
    · exact absurd hphase h.phase_ne
    · exact ⟨hnone, h.size_pos hphase, hfull⟩
  · rw [heq]
    dsimp only
    split
    next hcheck =>
      refine ⟨h, fun ms htimeout ↦ ?_⟩
      unfold Pool.checkSize at hcheck
      split at hcheck
      · cases hcheck
        cases htimeout
      · cases hcheck
    next hcheck =>
      have hpos := Pool.size_pos_of_checkSize hcheck
      have hrest := atRest_establish
        (c := { c with pool := { c.pool with phase := .connecting } }) rfl hpos
      rcases establish_cases (c := { c with pool := { c.pool with phase := .connecting } }) rfl with
        ⟨e, c', hestablish, hprompt, -⟩ | ⟨c', hestablish, hphase', -, hlen⟩
      · dsimp only at hestablish hrest
        rw [hestablish] at hrest ⊢
        refine ⟨hrest, fun ms htimeout ↦ ?_⟩
        cases htimeout
        exact absurd rfl (hprompt ms)
      · dsimp only at hestablish hrest
        rw [hestablish] at hrest ⊢
        refine ⟨atRest_acquireConnected hrest, fun ms htimeout ↦ ?_⟩
        obtain ⟨hnone, -⟩ := acquireConnected_timeout hphase' htimeout
        rw [hnone, List.length_nil] at hlen
        dsimp only at hlen
        omega

theorem atRest_settle (h : c.pool.AtRest) (held : Held) (outcome : Option ClientError) :
    (c.settle held outcome).pool.AtRest := by
  unfold settle
  cases outcome with
  | none => exact h.giveBack held
  | some e =>
      dsimp only
      split
      · exact h.giveBack held
      · split
        · exact (h.teardown held.generation).giveBack held.discard
        · exact h.giveBack held.discard

end Client

/-! ## Every step of a caller -/

namespace Caller

def held (pending : List Client.Pending) : List Held :=
  pending.map (·.held)

/-- The slots are accounted for by idle connections and waiting requests, and no dial is left half
done. -/
structure Sound (size : Nat) (s : Caller) : Prop where
  custody : s.client.Custody size (held s.pending)
  atRest : s.client.pool.AtRest

namespace Sound

variable {size : Nat} {s : Caller} {c : Client} {helds : List Held} {i : Nat}

theorem new (config : Config) (environment : Environment) :
    Sound config.poolSize (new config environment) :=
  ⟨.new config environment, .ofConfig config⟩

theorem poolSize_eq (h : Sound size s) : s.client.pool.size = s.client.config.poolSize :=
  h.custody.pool_size.trans h.custody.config_size.symm

/-- A request that has ended gives its connection back and waits no longer. -/
theorem settle {pending : List Client.Pending} {h : Held} (hcustody : c.Custody size helds)
    (hrest : c.pool.AtRest) (hi : helds[i]? = some h) (outcome : Option ClientError)
    (hpending : helds.eraseIdx i = held pending) : Sound size ⟨c.settle h outcome, pending⟩ where
  custody := hpending ▸ (Session.settle_moves hi outcome).custody hcustody
  atRest := Client.atRest_settle hrest h outcome

theorem send (h : Sound size s) (code : MessageCode) (frame : Bytes) :
    Sound size (s.send code frame) := by
  have hmoves := Session.acquire_moves s.client (held s.pending)
  have hrest := (Client.acquire_spec h.atRest h.poolSize_eq).1
  unfold Caller.send
  cases hacquire : s.client.acquire with
  | mk result c =>
      rw [hacquire] at hmoves hrest
      cases result with
      | error e =>
          simp only [Client.send, hacquire]
          exact ⟨hmoves.custody h.custody, hrest⟩
      | ok k =>
          have hcustody : c.Custody size (held s.pending ++ [k]) := hmoves.custody h.custody
          rcases Client.send_cases hacquire code frame with
            ⟨fault, hsend⟩ | ⟨network, hlen, hsend⟩
          · rw [hsend]
            have hlast : (held s.pending ++ [k])[(held s.pending).length]? = some k := by simp
            have herase : (held s.pending ++ [k]).eraseIdx (held s.pending).length =
                held s.pending := by
              rw [List.eraseIdx_append_of_length_le (Nat.le_refl _), Nat.sub_self]
              exact List.append_nil _
            exact settle hcustody hrest hlast _ herase
          · rw [hsend]
            refine ⟨?_, hrest⟩
            rw [held, List.map_append]
            exact hcustody.withNetwork hlen

theorem read (h : Sound size s) {p : Client.Pending} (hi : s.pending[i]? = some p)
    (reading : Reading) : Sound size (s.read i p reading) := by
  have hreads := s.client.readReply_reads p reading
  have hheld : (held s.pending)[i]? = some p.held := by
    rw [held, List.getElem?_map, hi]
    rfl
  have hrest : (s.client.readReply p reading).2.2.pool.AtRest := by
    rw [hreads.pool_eq.1]
    exact ⟨h.atRest.phase_ne, h.atRest.size_pos⟩
  obtain ⟨hlt, -⟩ := List.getElem?_eq_some_iff.mp hheld
  refine settle (hreads.custody hheld h.custody) hrest (List.getElem?_set_self hlt) _ ?_
  rw [List.eraseIdx_set_eq, held, List.eraseIdx_map]
  rfl

theorem abandon (h : Sound size s) {p : Client.Pending} (hi : s.pending[i]? = some p) :
    Sound size (s.abandon i p) := by
  have hheld : (held s.pending)[i]? = some p.held := by
    rw [held, List.getElem?_map, hi]
    rfl
  -- To the pool this is the end of a request with an error that condemns only its connection.
  exact settle h.custody h.atRest hheld (some .emptyKey) (List.eraseIdx_map _ _ _)

theorem step (h : Sound size s) (a : Action) : Sound size (s.step a) := by
  have honPending {i : Nat} {f : Client.Pending → Caller}
      (hf : ∀ p, s.pending[i]? = some p → Sound size (f p)) : Sound size (s.onPending i f) := by
    unfold onPending
    cases hi : s.pending[i]? with
    | none => exact h
    | some p => exact hf p hi
  cases a with
  | connect =>
      exact ⟨(Session.connect_moves s.client (held s.pending)).custody h.custody,
        Client.atRest_connect h.atRest⟩
  | close =>
      exact ⟨(Session.close_moves s.client (held s.pending)).custody h.custody, h.atRest.close⟩
  | send code frame => exact h.send code frame
  | read i reading => exact honPending fun p hi ↦ h.read hi reading
  | abandon i => exact honPending fun p hi ↦ h.abandon hi

theorem run (h : Sound size s) (actions : List Action) : Sound size (s.run actions) := by
  induction actions generalizing s with
  | nil => exact h
  | cons a actions ih => exact ih (h.step a)

end Sound

/-- A peer that stops in the middle of its first header. -/
def curt : Environment :=
  { accepts := fun _ ↦ true, react := fun _ ↦ { pieces := [[0, 0], [0]], ending := .closed } }

/-- A client with two idle connections. -/
def pair : Client :=
  { config := { poolSize := 2 }
    pool := { size := 2, phase := .connected, idle := [⟨1, 1⟩, ⟨2, 2⟩], opened := 2, nextId := 3 }
    network := { channels := [{}, {}], environment := curt } }

end Caller
end ReplicaClient
