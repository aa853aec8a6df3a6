import ReplicaClient.Proofs.Client.Crowd
import ReplicaClient.Proofs.Client.Generations

/-!
# One dial at a time

However the steps of many callers are mixed, a pool that is connecting waits for exactly one dial
under way, which gives it all of its connections or none, and a dial that was overtaken changes
nothing when it ends.  A caller who is alone takes the same steps one after the other.
-/

namespace ReplicaClient
namespace Crowd

variable {s : Crowd}

/-! ## A dial that goes on undisturbed -/

theorem openNext_ok {i g : Nat} {ks : List Connection} (hi : s.dials[i]? = some ⟨g, .ok ks⟩)
    (hleft : ks.length < s.client.config.poolSize) :
    s.openNext i = { s with
      client := s.client.openConnection.2
      dials := s.dials.set i (Dial.extend g ks s.client.openConnection.1) } := by
  simp only [openNext, hi, if_pos hleft]

theorem openNext_error {i g : Nat} {e : ClientError} (hi : s.dials[i]? = some ⟨g, .error e⟩) :
    s.openNext i = s := by
  simp only [openNext, hi]

theorem run_openNext_error {i g : Nat} {e : ClientError} (n : Nat)
    (hi : s.dials[i]? = some ⟨g, .error e⟩) : s.run (List.replicate n (.openNext i)) = s := by
  induction n with
  | zero => rfl
  | succ n ih =>
      rw [List.replicate_succ, run, List.foldl_cons, step, openNext_error hi]
      exact ih

/-- A dial opens its remaining connections one after the other, up to the first that fails. -/
theorem run_openNext {i g : Nat} {ks : List Connection} (n : Nat)
    (hi : s.dials[i]? = some ⟨g, .ok ks⟩) (hlen : ks.length + n = s.client.config.poolSize) :
    s.run (List.replicate n (.openNext i)) = { s with
      client := (Client.openConnections n s.client).2
      dials := s.dials.set i ⟨g, (Client.openConnections n s.client).1.map (ks ++ ·)⟩ } := by
  induction n generalizing s ks with
  | zero =>
      obtain ⟨hlt, hget⟩ := List.getElem?_eq_some_iff.mp hi
      have hset : s.dials.set i ⟨g, .ok (ks ++ [])⟩ = s.dials := by
        rw [List.append_nil, ← hget, List.set_getElem_self]
      show s = { s with dials := s.dials.set i ⟨g, .ok (ks ++ [])⟩ }
      rw [hset]
  | succ n ih =>
      obtain ⟨hlt, -⟩ := List.getElem?_eq_some_iff.mp hi
      rw [List.replicate_succ, run, List.foldl_cons, step, openNext_ok hi (by omega)]
      rcases s.client.openConnection_cases with ⟨e, c, heq, hopens⟩ | ⟨k, c, heq, hopens⟩
      · rw [heq]
        simp only [Client.openConnections, heq]
        exact run_openNext_error n (List.getElem?_set_self hlt)
      · rw [heq]
        have hnext : (ks ++ [k]).length + n = c.config.poolSize := by
          rw [hopens.config, List.length_append, List.length_singleton]
          omega
        refine (ih (List.getElem?_set_self hlt) hnext).trans ?_
        simp only [Client.openConnections, heq, List.set_set]
        cases hrest : Client.openConnections n c with
        | mk result c' =>
            cases result with
            | error e => rfl
            | ok rest =>
                simp only [Except.map, List.append_assoc, List.singleton_append]

/-- The steps of the last dial, with nobody in between. -/
def dialEvents (s : Crowd) : List Event :=
  List.replicate s.client.config.poolSize (.openNext s.dials.length) ++ [.land s.dials.length]

theorem land_eq {i : Nat} {d : Dial} (hi : s.dials[i]? = some d)
    (hover : d.isOver s.client.config.poolSize = true) :
    s.land i = { s.withPool (d.land s.client.pool) with dials := s.dials.eraseIdx i } := by
  simp only [land, hi, if_pos hover]

theorem run_append (s : Crowd) (events events' : List Event) :
    s.run (events ++ events') = (s.run events).run events' :=
  List.foldl_append

/-- A dial that nobody disturbs does what dialling does. -/
theorem run_establish (s : Crowd) (g : Nat) :
    run { s with dials := s.dials ++ [s.client.beginDial g] } s.dialEvents =
      { s with client := (s.client.establish g).2 } := by
  have hlast : ∀ d : Dial, (s.dials ++ [d])[s.dials.length]? = some d := fun d ↦
    List.getElem?_concat_length
  have hback : ∀ d : Dial, (s.dials ++ [d]).eraseIdx s.dials.length = s.dials := fun d ↦ by
    rw [List.eraseIdx_append_of_length_le (Nat.le_refl _), Nat.sub_self]
    exact List.append_nil _
  rw [dialEvents, run_append]
  cases haddress : Network.checkAddress s.client.config.addr with
  | error e =>
      have hbegin : s.client.beginDial g = ⟨g, .error e⟩ := by
        rw [Client.beginDial, haddress]
        rfl
      rw [hbegin, run_openNext_error _ (hlast _)]
      simp only [run, List.foldl_cons, List.foldl_nil, step]
      rw [land_eq (hlast _) rfl]
      simp only [Client.establish, Client.dialAll, haddress, hback]
      rfl
  | ok u =>
      have hbegin : s.client.beginDial g = ⟨g, .ok []⟩ := by
        rw [Client.beginDial, haddress]
        rfl
      have hset : ∀ d d' : Dial, (s.dials ++ [d]).set s.dials.length d' = s.dials ++ [d'] :=
        fun d d' ↦ by
          rw [List.set_append_right _ _ (Nat.le_refl _), Nat.sub_self]
          rfl
      rw [hbegin, run_openNext _ (hlast _) (Nat.zero_add _), hset]
      simp only [run, List.foldl_cons, List.foldl_nil, step]
      rcases Client.openConnections_cases s.client.config.poolSize s.client with
        ⟨e, c, heq, hopens⟩ | ⟨ks, c, heq, hopens, hlen⟩
      · rw [land_eq (hlast _) (by rw [heq]; rfl)]
        simp only [Client.establish, Client.dialAll, haddress, heq, hback]
        rfl
      · have hover : Dial.isOver ⟨g, .ok ks⟩ c.config.poolSize = true := by
          rw [hopens.config]
          exact decide_eq_true hlen
        rw [land_eq (hlast _) (by rw [heq]; exact hover)]
        simp only [Client.establish, Client.dialAll, haddress, heq, hback]
        rfl

/-- Where there is no dial, nothing comes of dialling. -/
theorem run_dialEvents (s : Crowd) : s.run s.dialEvents = s := by
  have hnone : s.dials[s.dials.length]? = none := List.getElem?_eq_none (Nat.le_refl _)
  have hopen : ∀ n, s.run (List.replicate n (.openNext s.dials.length)) = s := by
    intro n
    induction n with
    | zero => rfl
    | succ n ih =>
        rw [List.replicate_succ, run, List.foldl_cons, step, openNext, hnone]
        exact ih
  rw [dialEvents, run_append, hopen, run, List.foldl_cons, List.foldl_nil, step, land, hnone]

theorem run_connect (s : Crowd) (hphase : s.client.pool.phase ≠ .connecting) :
    s.run (.connect :: s.dialEvents) = { s with client := s.client.connect.2 } := by
  rw [run, List.foldl_cons, step, connect, Client.connect]
  cases hsize : s.client.pool.checkSize with
  | error e => exact s.run_dialEvents
  | ok u =>
      dsimp only
      rw [if_neg hphase]
      exact run_establish (s.withPool (s.client.pool.retire .connecting)) _

/-! ## A caller who is alone -/

/-- A connection is handed out, or a missing one is dialled and handed out. -/
theorem run_acquireConnected (s : Crowd) :
    ∃ events, s.run events =
      { s with toSession := Session.receive s.held s.client.acquireConnected } := by
  rcases s.client.pool.request_cases with
    ⟨k, rest, -, -, heq⟩ | ⟨-, -, -, heq⟩ | heq | ⟨-, heq⟩
  · refine ⟨[.request], ?_⟩
    simp only [run, List.foldl_cons, List.foldl_nil, step, request, Client.acquireConnected, heq]
    rfl
  · refine ⟨[.request, .replace s.replacing.length], ?_⟩
    simp only [run, List.foldl_cons, List.foldl_nil, step, request, Client.acquireConnected, heq,
      replace, List.getElem?_concat_length]
    rw [List.eraseIdx_append_of_length_le (Nat.le_refl _), Nat.sub_self]
    simp only [List.eraseIdx_cons_zero, List.append_nil]
    rfl
  · refine ⟨[], ?_⟩
    simp only [Client.acquireConnected, heq]
    rfl
  · refine ⟨[], ?_⟩
    simp only [Client.acquireConnected, heq]
    rfl

theorem run_acquire (s : Crowd) :
    ∃ events, s.run events = { s with toSession := Session.receive s.held s.client.acquire } := by
  have hconnected (h : s.client.acquire = s.client.acquireConnected) :
      ∃ events, s.run events =
        { s with toSession := Session.receive s.held s.client.acquire } := by
    rw [h]
    exact s.run_acquireConnected
  rcases s.client.pool.request_cases with
    ⟨k, rest, -, -, heq⟩ | ⟨-, -, -, heq⟩ | heq | ⟨-, heq⟩
  · exact hconnected (by simp only [Client.acquire, heq])
  · exact hconnected (by simp only [Client.acquire, heq])
  · exact hconnected (by simp only [Client.acquire, heq])
  · cases hsize : s.client.pool.checkSize with
    | error e =>
        refine ⟨[], ?_⟩
        simp only [Client.acquire, heq, hsize]
        rfl
    | ok u =>
        have hdial := run_establish (s.withPool { s.client.pool with phase := .connecting })
          s.client.pool.generation
        have hrequest : s.step .request =
            s.dialling { s.client.pool with phase := .connecting } := by
          simp only [step, request, heq, hsize]
        cases hestablish : Client.establish
            { s.client with pool := { s.client.pool with phase := .connecting } }
            s.client.pool.generation with
        | mk result c =>
            have hbegun : s.run (.request :: s.dialEvents) = { s with client := c } := by
              rw [run, List.foldl_cons, hrequest]
              refine hdial.trans ?_
              show ({ s with client := (Client.establish _ _).2 } : Crowd) = _
              rw [show (s.withPool _).client.establish _ = _ from hestablish]
            cases result with
            | error e =>
                refine ⟨.request :: s.dialEvents, hbegun.trans ?_⟩
                simp only [Client.acquire, heq, hsize, hestablish]
                rfl
            | ok u =>
                obtain ⟨events, hevents⟩ := run_acquireConnected { s with client := c }
                refine ⟨(.request :: s.dialEvents) ++ events, ?_⟩
                rw [run_append, hbegun, hevents]
                simp only [Client.acquire, heq, hsize, hestablish]

/-- Whatever a caller does who is alone, the steps of a crowd are the steps that it takes. -/
theorem exists_run_eq_step (s : Crowd) (hphase : s.client.pool.phase ≠ .connecting)
    (a : Session.Action) :
    ∃ events, s.run events = { s with toSession := s.toSession.step a } := by
  cases a with
  | connect => exact ⟨_, s.run_connect hphase⟩
  | acquire =>
      obtain ⟨events, hevents⟩ := s.run_acquire
      refine ⟨events, hevents.trans ?_⟩
      simp only [Session.step, Session.acquire]
      cases s.client.acquire with
      | mk result c => cases result <;> rfl
  | close => exact ⟨[.close], rfl⟩
  | drop i => exact ⟨[.drop i], rfl⟩
  | discard i => exact ⟨[.discard i], rfl⟩
  | invalidate i => exact ⟨[.invalidate i], rfl⟩
  | reconnect i => exact ⟨[.reconnect i], rfl⟩

/-! ## What never goes back -/

/-- The same client after something has happened. -/
structure Later (c c' : Client) : Prop where
  config : c'.config = c.config
  generation_le : c.pool.generation ≤ c'.pool.generation

namespace Later

variable {c c' c'' : Client}

theorem refl (c : Client) : Later c c :=
  ⟨rfl, Nat.le_refl _⟩

theorem trans (h : Later c c') (h' : Later c' c'') : Later c c'' :=
  ⟨h'.config.trans h.config, Nat.le_trans h.generation_le h'.generation_le⟩

theorem of_opens {ks : List Connection} (h : c.Opens ks c') : Later c c' :=
  ⟨h.config, Nat.le_of_eq h.generation_eq.symm⟩

theorem withPool (h : Later c c') {pool : Pool} (hpool : pool.generation = c'.pool.generation) :
    Later c { c' with pool } :=
  ⟨h.config, Nat.le_trans h.generation_le (Nat.le_of_eq hpool.symm)⟩

theorem of_move {a b : Session} (h : Session.Move a b) : Later a.client b.client := by
  refine ⟨?_, h.generation_le⟩
  cases h with
  | lose hopens => exact hopens.config
  | install hopens => exact hopens.config
  | replace _ _ hopens => exact hopens.config
  | reconnect _ hopens => exact hopens.config
  | _ => rfl

theorem of_moves {a b : Session} (h : Session.Moves a b) : Later a.client b.client := by
  induction h with
  | refl => exact refl _
  | tail _ hmove ih => exact ih.trans (of_move hmove)

end Later

theorem later_connect (s : Crowd) : Later s.client s.connect.client := by
  rw [connect]
  split
  · exact .refl _
  · split
    · exact .refl _
    · exact ⟨rfl, Nat.le_succ _⟩

theorem later_request (s : Crowd) : Later s.client s.request.client := by
  rw [request]
  rcases s.client.pool.request_cases with
    ⟨k, rest, -, -, heq⟩ | ⟨-, -, -, heq⟩ | heq | ⟨-, heq⟩
  · rw [heq]
    exact (Later.refl _).withPool rfl
  · rw [heq]
    exact (Later.refl _).withPool rfl
  · rw [heq]
    exact .refl _
  · rw [heq]
    dsimp only
    split
    · exact .refl _
    · exact (Later.refl _).withPool rfl

theorem later_replace (s : Crowd) (i : Nat) : Later s.client (s.replace i).client := by
  rw [replace]
  cases s.replacing[i]? with
  | none => exact .refl _
  | some g =>
      dsimp only
      rw [Client.replace]
      rcases s.client.dial_cases with ⟨e, c, heq, hopens⟩ | ⟨k, c, heq, hopens⟩
      · rw [heq]
        apply (Later.of_opens hopens).withPool
        rw [Pool.forget]
        split <;> rfl
      · rw [heq]
        exact .of_opens hopens

theorem later_openNext (s : Crowd) (i : Nat) : Later s.client (s.openNext i).client := by
  rw [openNext]
  split
  · split
    · rcases s.client.openConnection_cases with ⟨e, c, heq, hopens⟩ | ⟨k, c, heq, hopens⟩
      · rw [heq]
        exact .of_opens hopens
      · rw [heq]
        exact .of_opens hopens
    · exact .refl _
  · exact .refl _

theorem generation_land (d : Dial) (p : Pool) : (d.land p).generation = p.generation := by
  obtain ⟨generation, result⟩ := d
  cases result with
  | error e =>
      show (p.dialFailed generation).generation = p.generation
      rw [Pool.dialFailed]
      split <;> rfl
  | ok connections =>
      show (p.install generation connections).generation = p.generation
      rw [Pool.install]
      split <;> rfl

theorem later_step (s : Crowd) (e : Event) : Later s.client (s.step e).client := by
  cases e with
  | connect => exact s.later_connect
  | request => exact s.later_request
  | close => exact .of_moves (s.toSession.step_moves .close)
  | drop i => exact .of_moves (s.toSession.step_moves (.drop i))
  | discard i => exact .of_moves (s.toSession.step_moves (.discard i))
  | invalidate i => exact .of_moves (s.toSession.step_moves (.invalidate i))
  | reconnect i => exact .of_moves (s.toSession.step_moves (.reconnect i))
  | replace i => exact s.later_replace i
  | openNext i => exact s.later_openNext i
  | land i =>
      rw [step, land]
      split
      · exact .refl _
      · split
        · exact (Later.refl _).withPool (generation_land _ _)
        · exact .refl _

theorem later_run (s : Crowd) (events : List Event) : Later s.client (s.run events).client := by
  induction events generalizing s with
  | nil => exact .refl _
  | cons e events ih => exact (s.later_step e).trans (ih (s.step e))

/-! ## Overtaking -/

/-- The event begins a new generation, and what is under way belongs to the past. -/
def Overtakes (s : Crowd) : Event → Prop
  | .connect => 0 < s.client.pool.size ∧ s.client.pool.phase ≠ .connecting
  | .close => True
  | .invalidate i => ∃ k, s.held[i]? = some k ∧ k.generation = s.client.pool.generation
  | _ => False

/-- A dial for a generation that is not the current one is not waited for. -/
theorem land_of_lt {i : Nat} {d : Dial} (hi : s.dials[i]? = some d)
    (hlt : d.generation < s.client.pool.generation) :
    (s.step (.land i)).client.pool = s.client.pool := by
  have hawaits : ¬s.client.pool.awaits d.generation = true := by
    rw [Pool.awaits_iff]
    exact fun h ↦ Nat.ne_of_gt hlt h.1
  rw [step, land, hi]
  dsimp only
  split
  · obtain ⟨generation, result⟩ := d
    cases result with
    | error e => exact if_neg hawaits
    | ok connections => exact if_neg hawaits
  · rfl

/-- What overtakes the dials under way leaves all of them behind. -/
theorem Sound.generation_lt_of_overtakes (h : s.Sound) {e : Event} (hovertakes : s.Overtakes e) :
    ∀ d ∈ s.dials, d.generation < (s.step e).client.pool.generation := by
  intro d hd
  have hmem : d.generation ∈ s.dials.map Dial.generation := List.mem_map_of_mem hd
  have hle := h.dialled.generation_le _ hmem
  cases e with
  | connect =>
      obtain ⟨hsize, hphase⟩ := hovertakes
      have hcheck : s.client.pool.checkSize = .ok () := if_neg (Nat.ne_of_gt hsize)
      rw [Crowd.step, Crowd.connect, hcheck]
      dsimp only
      rw [if_neg hphase]
      exact Nat.lt_succ_of_le hle
  | close =>
      show d.generation < s.client.pool.close.generation
      rw [Pool.close]
      split
      · rename_i hidle
        -- A pool that is closed already waits for no dial, so none is of its generation.
        have hphase : s.client.pool.phase ≠ .connecting := by
          rcases hidle.2 with hphase | hphase <;> rw [hphase] <;> exact Phase.noConfusion
        have hnone := List.count_eq_zero.mp (h.dialled.count_eq_zero hphase)
        exact Nat.lt_of_le_of_ne hle fun heq ↦ hnone (heq ▸ hmem)
      · exact Nat.lt_succ_of_le hle
  | invalidate i =>
      obtain ⟨k, hi, hgeneration⟩ := hovertakes
      simp only [Crowd.step, Session.step, Session.onHeld, hi, Session.invalidate, Client.invalidate,
        Pool.teardown, hgeneration, if_pos]
      exact Nat.lt_succ_of_le hle
  | _ => exact hovertakes.elim

/-! ## All that holds of dials -/

/-- The dial that the pool waits for leads out of connecting, if nobody disturbs it. -/
theorem Sound.exists_run_phase_ne (h : s.Sound) (hphase : s.client.pool.phase = .connecting) :
    ∃ i n, (s.run (List.replicate n (.openNext i) ++ [.land i])).client.pool.phase ≠
      .connecting := by
  have hcount := h.dialled.count_eq
  rw [if_pos hphase] at hcount
  obtain ⟨d, hd, hgeneration⟩ := List.mem_map.mp
    (List.count_pos_iff.mp (Nat.lt_of_lt_of_eq Nat.one_pos hcount.symm))
  obtain ⟨i, hlt, hget⟩ := List.getElem_of_mem hd
  have hi : s.dials[i]? = some d := List.getElem?_eq_some_iff.mpr ⟨hlt, hget⟩
  have hlen := h.length_le d hd
  have hawaits := h.dialled.awaits_of_mem (hgeneration ▸ List.mem_map_of_mem hd)
  rw [← hgeneration] at hawaits
  obtain ⟨g, result⟩ := d
  cases result with
  | error e =>
      refine ⟨i, 0, ?_⟩
      show (s.land i).client.pool.phase ≠ .connecting
      rw [land_eq hi rfl]
      show (s.client.pool.dialFailed g).phase ≠ .connecting
      rw [Pool.dialFailed, if_pos hawaits]
      exact Phase.noConfusion
  | ok ks =>
      refine ⟨i, s.client.config.poolSize - ks.length, ?_⟩
      rw [run_append, run_openNext _ hi (Nat.add_sub_cancel' hlen)]
      rcases Client.openConnections_cases (s.client.config.poolSize - ks.length) s.client with
        ⟨e, c, heq, hopens⟩ | ⟨rest, c, heq, hopens, hrest⟩
      · rw [heq]
        have hsame : c.pool.awaits g = true := by
          rw [hopens.pool]
          exact hawaits
        rw [Crowd.run, List.foldl_cons, List.foldl_nil, Crowd.step,
          land_eq (List.getElem?_set_self hlt) rfl]
        show (c.pool.dialFailed g).phase ≠ .connecting
        rw [Pool.dialFailed, if_pos hsame]
        exact Phase.noConfusion
      · rw [heq]
        have hsame : c.pool.awaits g = true := by
          rw [hopens.pool]
          exact hawaits
        have hover : Dial.isOver ⟨g, .ok (ks ++ rest)⟩ c.config.poolSize = true := by
          rw [hopens.config]
          apply decide_eq_true
          rw [List.length_append, hrest]
          exact Nat.add_sub_cancel' hlen
        rw [Crowd.run, List.foldl_cons, List.foldl_nil, Crowd.step,
          land_eq (List.getElem?_set_self hlt) hover]
        show (c.pool.install g (ks ++ rest)).phase ≠ .connecting
        rw [Pool.install, if_pos hsame]
        exact Phase.noConfusion

/-- What holds of the dials in a crowd, for a pool of the given size. -/
structure SingleDial (size : Nat) (s : Crowd) : Prop where
  /-- While the pool is connecting just one dial is for its generation, and none is otherwise. -/
  current : (s.dials.filter (·.generation = s.client.pool.generation)).length =
    if s.client.pool.phase = .connecting then 1 else 0
  /-- A dial that has opened all connections gives them to the pool that still waits for it. -/
  installs : ∀ i g ks, s.dials[i]? = some ⟨g, .ok ks⟩ → ks.length = size →
    s.client.pool.generation = g → s.client.pool.phase = .connecting →
      (s.step (.land i)).client.pool =
        { s.client.pool with phase := .connected, opened := size, idle := ks }
  /-- No connection belongs to two of the pool, its callers and the dials. -/
  fresh : (s.owned.map Connection.id).Nodup
  /-- A dial that has failed leaves nothing to the pool that still waits for it. -/
  fails : ∀ i g e, s.dials[i]? = some ⟨g, .error e⟩ →
    s.client.pool.generation = g → s.client.pool.phase = .connecting →
      (s.step (.land i)).client.pool =
        { s.client.pool with phase := .uninitialized, opened := 0, idle := [] }
  /-- Before it has opened all connections, or failed, a dial does not end. -/
  unfinished : ∀ i g ks, s.dials[i]? = some ⟨g, .ok ks⟩ → ks.length ≠ size →
    s.step (.land i) = s
  /-- A dial that the pool does not wait for changes nothing when it ends. -/
  unawaited : ∀ i d, s.dials[i]? = some d →
    ¬(s.client.pool.generation = d.generation ∧ s.client.pool.phase = .connecting) →
      (s.step (.land i)).client.pool = s.client.pool
  /-- The end of a dial that was overtaken changes nothing, whenever it comes. -/
  overtaken : ∀ e, s.Overtakes e → ∀ d ∈ s.dials, ∀ future i d',
    ((s.step e).run future).dials[i]? = some d' → d'.generation = d.generation →
      (((s.step e).run future).step (.land i)).client.pool =
        ((s.step e).run future).client.pool
  /-- A pool that is connecting can leave that phase through the dials under way alone. -/
  leaves : s.client.pool.phase = .connecting → ∃ i n,
    (s.run (List.replicate n (.openNext i) ++ [.land i])).client.pool.phase ≠ .connecting

theorem singleDial_of_sound (h : s.Sound) : s.SingleDial s.client.config.poolSize := by
  refine ⟨?_, ?_, h.exclusive.id_nodup, ?_, ?_, ?_, ?_, h.exists_run_phase_ne⟩
  · have hcount := h.dialled.count_eq
    rwa [List.count_eq_countP, List.countP_map, List.countP_eq_length_filter] at hcount
  · intro i g ks hi hlen hgeneration hphase
    have hawaits := Pool.awaits_iff.mpr ⟨hgeneration, hphase⟩
    rw [step, land_eq hi (decide_eq_true hlen), ← hlen]
    exact if_pos hawaits
  · intro i g e hi hgeneration hphase
    have hawaits := Pool.awaits_iff.mpr ⟨hgeneration, hphase⟩
    have hunconnected : s.client.pool.phase ≠ .connected := by
      rw [hphase]
      exact Phase.noConfusion
    rw [step, land_eq hi rfl, ← h.accounted.opened_eq_zero hunconnected,
      ← h.accounted.idle_eq_nil hunconnected]
    exact if_pos hawaits
  · intro i g ks hi hlen
    rw [step, land, hi]
    exact if_neg fun hover ↦ hlen (of_decide_eq_true hover)
  · intro i d hi hawaits
    rw [← Pool.awaits_iff] at hawaits
    rw [step, land, hi]
    dsimp only
    split
    · obtain ⟨g, result⟩ := d
      cases result with
      | error e => exact if_neg hawaits
      | ok ks => exact if_neg hawaits
    · rfl
  · intro e hovertakes d hd future i d' hi hgeneration
    apply land_of_lt hi
    rw [hgeneration]
    exact Nat.lt_of_lt_of_le (h.generation_lt_of_overtakes hovertakes d hd)
      (later_run _ future).generation_le

/-- Whatever many callers do and whichever dials fail, one dial at a time is for the pool. -/
theorem singleDial_run (config : Config) (environment : Environment) (past : List Event) :
    ((new config environment).run past).SingleDial config.poolSize := by
  have h : ((new config environment).run past).Sound := (Sound.new config environment).run past
  have hconfig : ((new config environment).run past).client.config = config :=
    (later_run _ past).config
  have hsingle := singleDial_of_sound h
  rwa [hconfig] at hsingle

end Crowd
end ReplicaClient
