import ReplicaClient.Proofs.Client.Ownership
import ReplicaClient.Proofs.Pool.Dials

/-!
# Many callers at once

A crowd is a client with the connections that its callers hold and with the dials that are under
way.  The steps of different callers come in any order: a caller may close the pool, condemn it or
connect it anew while another one dials.  A step is what happens to the pool at once, or one
connection that is opened; every step keeps the slots accounted for, every connection with one
owner, and one dial for a pool that is connecting.
-/

namespace ReplicaClient

/-- A dial of the pool that is under way: the generation it was begun for, and the connections it
has opened so far or the error that has ended it. -/
structure Dial where
  generation : Nat
  result : Except ClientError (List Connection)

namespace Dial

def opened (d : Dial) : List Connection :=
  match d.result with
  | .ok connections => connections
  | .error _ => []

/-- All connections are open, or one has failed. -/
def isOver (d : Dial) (size : Nat) : Bool :=
  match d.result with
  | .ok connections => connections.length = size
  | .error _ => true

/-- What the end of a dial does to the pool. -/
def land (d : Dial) (p : Pool) : Pool :=
  match d.result with
  | .ok connections => p.install d.generation connections
  | .error _ => p.dialFailed d.generation

/-- A dial that has opened connections goes on with one more, or fails to open it. -/
def extend (generation : Nat) (connections : List Connection) :
    Except ClientError Connection → Dial
  | .ok connection => ⟨generation, .ok (connections ++ [connection])⟩
  | .error e => ⟨generation, .error e⟩

end Dial

/-- A dial begins with a look at the address. -/
def Client.beginDial (c : Client) (generation : Nat) : Dial :=
  ⟨generation, (Network.checkAddress c.config.addr).map fun _ ↦ []⟩

/-- Beside the dials of the pool there are the dials for missing connections, each for a caller in
some generation. -/
structure Crowd extends Session where
  dials : List Dial := []
  replacing : List Nat := []

namespace Crowd

/-- What callers do next.  Connections and dials are named by their positions. -/
inductive Event where
  | connect
  | request
  | close
  | drop (i : Nat)
  | discard (i : Nat)
  | invalidate (i : Nat)
  | reconnect (i : Nat)
  | replace (i : Nat)
  | openNext (i : Nat)
  | land (i : Nat)
  deriving DecidableEq, Repr

def new (config : Config) (environment : Environment) : Crowd :=
  { toSession := .new config environment }

def withPool (s : Crowd) (pool : Pool) : Crowd :=
  { s with client := { s.client with pool } }

/-- The pool has been given over to a dial for its current generation. -/
def dialling (s : Crowd) (pool : Pool) : Crowd :=
  { s.withPool pool with dials := s.dials ++ [s.client.beginDial pool.generation] }

/-- Whoever wants to connect a pool waits while it is connecting. -/
def connect (s : Crowd) : Crowd :=
  match s.client.pool.checkSize with
  | .error _ => s
  | .ok () =>
      if s.client.pool.phase = .connecting then s
      else s.dialling (s.client.pool.retire .connecting)

/-- A caller who asks for a connection may have to wait, and then asks once more. -/
def request (s : Crowd) : Crowd :=
  match s.client.pool.request with
  | (.take held, pool) => { s.withPool pool with held := s.held ++ [held] }
  | (.replace generation, pool) =>
      { s.withPool pool with replacing := s.replacing ++ [generation] }
  | (.dialPool _, pool) =>
      match s.client.pool.checkSize with
      | .error _ => s
      | .ok () => s.dialling pool
  | (.wait, _) => s

/-- The dial for a missing connection ends. -/
def replace (s : Crowd) (i : Nat) : Crowd :=
  match s.replacing[i]? with
  | none => s
  | some generation =>
      { s with
        toSession := Session.receive s.held (s.client.replace generation)
        replacing := s.replacing.eraseIdx i }

/-- A dial goes on with its next connection, if there is one left. -/
def openNext (s : Crowd) (i : Nat) : Crowd :=
  match s.dials[i]? with
  | some ⟨generation, .ok connections⟩ =>
      if connections.length < s.client.config.poolSize then
        { s with
          client := s.client.openConnection.2
          dials := s.dials.set i
            (Dial.extend generation connections s.client.openConnection.1) }
      else s
  | _ => s

def land (s : Crowd) (i : Nat) : Crowd :=
  match s.dials[i]? with
  | none => s
  | some d =>
      if d.isOver s.client.config.poolSize then
        { s.withPool (d.land s.client.pool) with dials := s.dials.eraseIdx i }
      else s

def step (s : Crowd) : Event → Crowd
  | .connect => s.connect
  | .request => s.request
  | .close => { s with toSession := s.toSession.step .close }
  | .drop i => { s with toSession := s.toSession.step (.drop i) }
  | .discard i => { s with toSession := s.toSession.step (.discard i) }
  | .invalidate i => { s with toSession := s.toSession.step (.invalidate i) }
  | .reconnect i => { s with toSession := s.toSession.step (.reconnect i) }
  | .replace i => s.replace i
  | .openNext i => s.openNext i
  | .land i => s.land i

def run (s : Crowd) (events : List Event) : Crowd :=
  events.foldl step s

/-! ## What every step keeps -/

/-- The connections that somebody has: the pool, a caller or a dial. -/
def owned (s : Crowd) : List Connection :=
  s.client.owned s.held ++ s.dials.flatMap Dial.opened

structure Sound (s : Crowd) : Prop where
  pool_size : s.client.pool.size = s.client.config.poolSize
  accounted : s.client.pool.Accounted (s.held.map Held.generation ++ s.replacing)
  dialled : s.client.pool.Dialled (s.dials.map Dial.generation)
  exclusive : s.client.Exclusive s.owned
  length_le : ∀ d ∈ s.dials, d.opened.length ≤ s.client.config.poolSize

namespace Sound

variable {s : Crowd}

theorem new (config : Config) (environment : Environment) : (new config environment).Sound where
  pool_size := rfl
  accounted := .ofConfig config
  dialled := .ofConfig config
  exclusive := (Client.Custody.new config environment).exclusive
  length_le := by simp [Crowd.new]

/-- A pool in another state that has no more idle connections. -/
theorem withPool (h : s.Sound) {pool : Pool} (hsize : pool.size = s.client.pool.size)
    (hid : pool.nextId = s.client.pool.nextId) (hidle : pool.idle.Sublist s.client.pool.idle)
    (hacc : pool.Accounted (s.held.map Held.generation ++ s.replacing))
    (hdialled : pool.Dialled (s.dials.map Dial.generation)) : (s.withPool pool).Sound where
  pool_size := hsize.trans h.pool_size
  accounted := hacc
  dialled := hdialled
  exclusive := by
    apply (h.exclusive.withPool hid).sublist
    exact (hidle.append (List.Sublist.refl _)).append (List.Sublist.refl _)
  length_le := h.length_le

/-- Connections that were opened and lost again leave nothing behind. -/
theorem lose (h : s.Sound) {c : Client} (hopens : s.client.Opens [] c) :
    Sound { s with client := c } where
  pool_size := by
    show c.pool.size = c.config.poolSize
    rw [hopens.size_eq, hopens.config]
    exact h.pool_size
  accounted := by
    show c.pool.Accounted _
    rw [hopens.pool]
    exact h.accounted.withNextId _
  dialled := h.dialled.congr hopens.generation_eq (by
    show c.pool.phase = s.client.pool.phase
    rw [hopens.pool])
  exclusive := by
    have hall := h.exclusive.opens hopens
    rw [List.append_nil] at hall
    show c.Exclusive (c.pool.idle ++ _ ++ _)
    rw [hopens.idle_eq]
    exact hall
  length_le := by
    show ∀ d ∈ s.dials, d.opened.length ≤ c.config.poolSize
    rw [hopens.config]
    exact h.length_le

/-! ### Dials -/

theorem opened_beginDial (c : Client) (generation : Nat) :
    (c.beginDial generation).opened = [] := by
  rw [Client.beginDial]
  cases Network.checkAddress c.config.addr <;> rfl

/-- A dial begins with no connections. -/
theorem dialling (h : s.Sound) {pool : Pool} (hsize : pool.size = s.client.pool.size)
    (hid : pool.nextId = s.client.pool.nextId) (hidle : pool.idle.Sublist s.client.pool.idle)
    (hacc : pool.Accounted (s.held.map Held.generation ++ s.replacing))
    (hdialled : pool.Dialled (pool.generation :: s.dials.map Dial.generation)) :
    (s.dialling pool).Sound where
  pool_size := hsize.trans h.pool_size
  accounted := hacc
  dialled := by
    show pool.Dialled ((s.dials ++ [s.client.beginDial pool.generation]).map Dial.generation)
    rw [List.map_append]
    exact hdialled.perm (@List.perm_append_comm _ [pool.generation] _)
  exclusive := by
    show Client.Exclusive _ (_ ++ (s.dials ++ [s.client.beginDial pool.generation]).flatMap _)
    rw [List.flatMap_append, List.flatMap_singleton, opened_beginDial, List.append_nil]
    apply (h.exclusive.withPool hid).sublist
    exact (hidle.append (List.Sublist.refl _)).append (List.Sublist.refl _)
  length_le d hd := by
    rcases List.mem_append.mp hd with hd | hd
    · exact h.length_le d hd
    · obtain rfl := List.mem_singleton.mp hd
      rw [opened_beginDial]
      exact Nat.zero_le _

theorem connect (h : s.Sound) : s.connect.Sound := by
  rw [Crowd.connect]
  cases s.client.pool.checkSize with
  | error e => exact h
  | ok u =>
      dsimp only
      by_cases hphase : s.client.pool.phase = .connecting
      · rw [if_pos hphase]
        exact h
      · rw [if_neg hphase]
        exact h.dialling rfl rfl (List.nil_sublist _) h.accounted.retire h.dialled.redial

theorem opened_perm {i : Nat} {d : Dial} (hi : s.dials[i]? = some d) :
    (s.dials.flatMap Dial.opened).Perm
      (d.opened ++ (s.dials.eraseIdx i).flatMap Dial.opened) :=
  (perm_cons_eraseIdx hi).flatMap_right Dial.opened

/-- Something more has come of a dial. -/
theorem extend (h : s.Sound) {i : Nat} {d d' : Dial} {c : Client} {new : List Connection}
    (hi : s.dials[i]? = some d) (hopens : s.client.Opens new c)
    (hgeneration : d'.generation = d.generation) (hopened : d'.opened.Sublist (d.opened ++ new))
    (hlen : d'.opened.length ≤ s.client.config.poolSize) :
    Sound { s with client := c, dials := s.dials.set i d' } := by
  have hlose := h.lose hopens.drop
  have hgenerations : (s.dials.set i d').map Dial.generation = s.dials.map Dial.generation :=
    map_set_of_eq hi hgeneration
  refine ⟨hlose.pool_size, hlose.accounted, ?_, ?_, ?_⟩
  · show c.pool.Dialled ((s.dials.set i d').map Dial.generation)
    rw [hgenerations]
    exact hlose.dialled
  · obtain ⟨hlt, -⟩ := List.getElem?_eq_some_iff.mp hi
    have hset : (s.dials.set i d').Perm (d' :: s.dials.eraseIdx i) :=
      List.set_perm_cons_eraseIdx hlt d'
    have hbefore : (s.owned ++ new).Perm (s.client.owned s.held ++
        ((d.opened ++ new) ++ (s.dials.eraseIdx i).flatMap Dial.opened)) := by
      rw [owned, List.append_assoc, List.append_assoc]
      apply List.Perm.append_left
      refine ((opened_perm hi).append_right new).trans ?_
      rw [List.append_assoc]
      exact List.perm_append_comm.append_left _
    have hafter : (s.client.owned s.held ++ (d'.opened ++
        (s.dials.eraseIdx i).flatMap Dial.opened)).Perm
        (s.client.owned s.held ++ (s.dials.set i d').flatMap Dial.opened) :=
      (hset.flatMap_right Dial.opened).symm.append_left _
    show c.Exclusive (c.pool.idle ++ _ ++ (s.dials.set i d').flatMap Dial.opened)
    rw [hopens.idle_eq]
    apply Client.Exclusive.perm ?_ hafter
    apply ((h.exclusive.opens hopens).perm hbefore).sublist
    exact (List.Sublist.refl _).append (hopened.append (List.Sublist.refl _))
  · intro e he
    show e.opened.length ≤ c.config.poolSize
    rw [hopens.config]
    rcases List.mem_or_eq_of_mem_set he with he | rfl
    · exact h.length_le e he
    · exact hlen

theorem openNext (h : s.Sound) (i : Nat) : (s.openNext i).Sound := by
  rw [Crowd.openNext]
  split
  · rename_i generation connections hi
    by_cases hleft : connections.length < s.client.config.poolSize
    · rw [if_pos hleft]
      rcases s.client.openConnection_cases with ⟨e, c, heq, hopens⟩ | ⟨k, c, heq, hopens⟩
      · rw [heq]
        exact h.extend hi hopens rfl (List.nil_sublist _) (Nat.zero_le _)
      · rw [heq]
        have hlen : (connections ++ [k]).length ≤ s.client.config.poolSize := by
          rw [List.length_append]
          exact hleft
        exact h.extend hi hopens rfl (List.Sublist.refl _) hlen
    · rw [if_neg hleft]
      exact h
  · exact h

/-- The end of a dial adds at most its own connections to the idle ones. -/
theorem idle_land_sublist (d : Dial) (p : Pool) :
    (d.land p).idle.Sublist (p.idle ++ d.opened) ∧ (d.land p).size = p.size ∧
      (d.land p).nextId = p.nextId := by
  obtain ⟨generation, result⟩ := d
  cases result with
  | error e =>
      show (p.dialFailed generation).idle.Sublist (p.idle ++ []) ∧
        (p.dialFailed generation).size = p.size ∧ (p.dialFailed generation).nextId = p.nextId
      rw [List.append_nil, Pool.dialFailed]
      split <;> exact ⟨List.Sublist.refl _, rfl, rfl⟩
  | ok connections =>
      show (p.install generation connections).idle.Sublist (p.idle ++ connections) ∧
        (p.install generation connections).size = p.size ∧
          (p.install generation connections).nextId = p.nextId
      rw [Pool.install]
      split
      · exact ⟨List.sublist_append_right _ _, rfl, rfl⟩
      · exact ⟨List.sublist_append_left _ _, rfl, rfl⟩

theorem accounted_land {p : Pool} {out : List Nat} (h : p.Accounted out) {d : Dial}
    (hlen : d.opened.length ≤ p.size) : (d.land p).Accounted out := by
  obtain ⟨generation, result⟩ := d
  cases result with
  | error e => exact h.dialFailed generation
  | ok connections => exact h.install hlen

theorem dialled_land {p : Pool} {d : Dial} {dials : List Nat}
    (h : p.Dialled (d.generation :: dials)) : (d.land p).Dialled dials := by
  obtain ⟨generation, result⟩ := d
  cases result with
  | error e => exact h.dialFailed
  | ok connections => exact h.install connections

theorem land (h : s.Sound) (i : Nat) : (s.land i).Sound := by
  rw [Crowd.land]
  cases hi : s.dials[i]? with
  | none => exact h
  | some d =>
      dsimp only
      by_cases hover : d.isOver s.client.config.poolSize = true
      · rw [if_pos hover]
        have hlen : d.opened.length ≤ s.client.pool.size :=
          h.pool_size ▸ h.length_le d (List.mem_of_getElem? hi)
        obtain ⟨hidle, hsize, hid⟩ := idle_land_sublist d s.client.pool
        refine ⟨hsize.trans h.pool_size, accounted_land h.accounted hlen, ?_, ?_, ?_⟩
        · exact dialled_land (h.dialled.perm ((perm_cons_eraseIdx hi).map Dial.generation))
        · have hbefore : s.owned.Perm ((s.client.pool.idle ++ d.opened) ++
              (s.held.map Held.connection ++
                (s.dials.eraseIdx i).flatMap Dial.opened)) := by
            rw [owned, Client.owned, List.append_assoc, List.append_assoc]
            apply List.Perm.append_left
            refine ((opened_perm hi).append_left _).trans ?_
            rw [← List.append_assoc, ← List.append_assoc]
            exact List.perm_append_comm.append_right _
          apply ((h.exclusive.perm hbefore).sublist ?_).withPool hid
          rw [owned, Client.owned, List.append_assoc]
          exact hidle.append (List.Sublist.refl _)
        · exact fun e he ↦ h.length_le e (List.mem_of_mem_eraseIdx he)
      · rw [if_neg hover]
        exact h

/-! ### Handing out -/

theorem request (h : s.Sound) : s.request.Sound := by
  rw [Crowd.request]
  rcases s.client.pool.request_cases with
    ⟨k, rest, hphase, hidle, heq⟩ | ⟨hphase, hidle, hroom, heq⟩ | heq | ⟨hphase, heq⟩
  · rw [heq]
    refine ⟨h.pool_size, ?_, h.dialled.congr rfl rfl, ?_, h.length_le⟩
    · have hperm : (s.client.pool.generation ::
          (s.held.map Held.generation ++ s.replacing)).Perm
          ((s.held ++ [(⟨k, s.client.pool.generation, true⟩ : Held)]).map Held.generation ++
            s.replacing) := by
        rw [List.map_append, ← List.cons_append]
        exact (@List.perm_append_comm _ [s.client.pool.generation] _).append_right _
      exact (h.accounted.take hidle).perm hperm
    · have hperm : s.owned.Perm (rest ++
          (s.held ++ [(⟨k, s.client.pool.generation, true⟩ : Held)]).map Held.connection ++
            s.dials.flatMap Dial.opened) := by
        rw [owned, Client.owned, hidle, List.map_append, ← List.append_assoc]
        exact (@List.perm_append_comm _ [k] _).append_right _
      exact (h.exclusive.perm hperm).withPool rfl
  · rw [heq]
    refine ⟨h.pool_size, ?_, h.dialled.congr rfl rfl, h.exclusive.withPool rfl, h.length_le⟩
    have hperm : (s.client.pool.generation ::
        (s.held.map Held.generation ++ s.replacing)).Perm
        (s.held.map Held.generation ++ (s.replacing ++ [s.client.pool.generation])) := by
      rw [← List.append_assoc]
      exact @List.perm_append_comm _ [s.client.pool.generation] _
    exact (h.accounted.replace hphase hroom).perm hperm
  · rw [heq]
    exact h
  · rw [heq]
    dsimp only
    cases s.client.pool.checkSize with
    | error e => exact h
    | ok u =>
        have hidle : s.client.pool.phase ≠ .connecting := by
          rcases hphase with hphase | hphase <;> rw [hphase] <;> exact Phase.noConfusion
        exact h.dialling rfl rfl (List.Sublist.refl _) (h.accounted.dialPool hphase)
          (h.dialled.dialPool hidle)

/-- The dial for a missing connection hands it out or gives its slot back. -/
theorem replace (h : s.Sound) (i : Nat) : (s.replace i).Sound := by
  rw [Crowd.replace]
  cases hi : s.replacing[i]? with
  | none => exact h
  | some g =>
      have hslots : s.client.pool.Accounted
          (g :: (s.held.map Held.generation ++ s.replacing.eraseIdx i)) := by
        apply h.accounted.perm
        refine ((perm_cons_eraseIdx hi).append_left _).trans ?_
        exact List.perm_middle
      dsimp only
      rw [Client.replace]
      rcases s.client.dial_cases with ⟨e, c, heq, hopens⟩ | ⟨k, c, heq, hopens⟩
      · rw [heq]
        have hlose := h.lose hopens
        have hforget : (c.pool.forget g).generation = c.pool.generation ∧
            (c.pool.forget g).phase = c.pool.phase ∧ (c.pool.forget g).idle = c.pool.idle ∧
            (c.pool.forget g).size = c.pool.size ∧
            (c.pool.forget g).nextId = c.pool.nextId := by
          rw [Pool.forget]
          split <;> exact ⟨rfl, rfl, rfl, rfl, rfl⟩
        obtain ⟨hgeneration, hphase, hidle, hsize, hid⟩ := hforget
        show Sound ⟨⟨{ c with pool := c.pool.forget g }, s.held⟩, s.dials, s.replacing.eraseIdx i⟩
        refine ⟨hsize.trans hlose.pool_size, ?_, hlose.dialled.congr hgeneration hphase, ?_,
          hlose.length_le⟩
        · apply Pool.Accounted.forget
          show c.pool.Accounted _
          rw [hopens.pool]
          exact hslots.withNextId _
        · apply (hlose.exclusive.withPool hid).sublist
          rw [owned, owned, Client.owned, Client.owned, hidle]
      · rw [heq]
        have hlose := h.lose hopens.drop
        show Sound ⟨⟨c, s.held ++ [⟨k, g, true⟩]⟩, s.dials, s.replacing.eraseIdx i⟩
        refine ⟨hlose.pool_size, ?_, hlose.dialled, ?_, hlose.length_le⟩
        · rw [hopens.pool, List.map_append, List.append_assoc]
          apply Pool.Accounted.withNextId
          exact hslots.perm List.perm_middle.symm
        · rw [owned, Client.owned, hopens.idle_eq, List.map_append, ← List.append_assoc]
          apply (h.exclusive.opens hopens).perm
          rw [owned, Client.owned, List.append_assoc _ _ [k]]
          exact (List.perm_append_comm.append_left _).trans
            (List.Perm.of_eq (List.append_assoc _ _ _).symm)

/-! ### Taking back -/

theorem close (h : s.Sound) : (s.step .close).Sound := by
  show (s.withPool s.client.pool.close).Sound
  rcases s.client.pool.close_cases with ⟨heq, -⟩ | heq
  · rw [heq]
    exact h
  · rw [heq]
    exact h.withPool rfl rfl (List.nil_sublist _) h.accounted.retire
      (h.dialled.retire Phase.noConfusion)

theorem drop (h : s.Sound) (i : Nat) : (s.step (.drop i)).Sound := by
  simp only [step, Session.step, Session.onHeld]
  cases hi : s.held[i]? with
  | none => exact h
  | some k =>
      obtain ⟨hsize, hid, hidle⟩ := s.client.pool.idle_giveBack_sublist k
      refine ⟨hsize.trans h.pool_size, ?_, h.dialled.giveBack k, ?_, h.length_le⟩
      · apply Pool.Accounted.giveBack
        exact h.accounted.perm
          (((perm_cons_eraseIdx hi).map Held.generation).append_right s.replacing)
      · have hbefore : s.owned.Perm ((s.client.pool.idle ++ [k.connection]) ++
            ((s.held.eraseIdx i).map Held.connection ++ s.dials.flatMap Dial.opened)) := by
          rw [owned, Client.owned, List.append_assoc, List.append_assoc]
          apply List.Perm.append_left
          exact ((perm_cons_eraseIdx hi).map Held.connection).append_right _
        apply ((h.exclusive.perm hbefore).sublist ?_).withPool hid
        rw [owned, Client.owned, List.append_assoc]
        exact hidle.append (List.Sublist.refl _)

/-- What is said of a held connection does not matter here. -/
theorem relabel (h : s.Sound) {i : Nat} {k k' : Held} (hi : s.held[i]? = some k)
    (hconnection : k'.connection = k.connection) (hgeneration : k'.generation = k.generation) :
    Sound { s with held := s.held.set i k' } where
  pool_size := h.pool_size
  accounted := by
    show s.client.pool.Accounted ((s.held.set i k').map Held.generation ++ _)
    rw [map_set_of_eq hi hgeneration]
    exact h.accounted
  dialled := h.dialled
  exclusive := by
    show s.client.Exclusive (_ ++ (s.held.set i k').map Held.connection ++ _)
    rw [map_set_of_eq hi hconnection]
    exact h.exclusive
  length_le := h.length_le

theorem discard (h : s.Sound) (i : Nat) : (s.step (.discard i)).Sound := by
  simp only [step, Session.step, Session.onHeld]
  cases hi : s.held[i]? with
  | none => exact h
  | some k => exact h.relabel hi rfl rfl

theorem invalidate (h : s.Sound) (i : Nat) : (s.step (.invalidate i)).Sound := by
  simp only [step, Session.step, Session.onHeld]
  cases hi : s.held[i]? with
  | none => exact h
  | some k =>
      have hsame : (s.client.pool.teardown k.generation).size = s.client.pool.size ∧
          (s.client.pool.teardown k.generation).nextId = s.client.pool.nextId ∧
          (s.client.pool.teardown k.generation).idle.Sublist s.client.pool.idle := by
        rw [Pool.teardown]
        split
        · exact ⟨rfl, rfl, List.nil_sublist _⟩
        · exact ⟨rfl, rfl, List.Sublist.refl _⟩
      obtain ⟨hsize, hid, hidle⟩ := hsame
      have hpool := h.withPool hsize hid hidle (h.accounted.teardown k.generation)
        (h.dialled.teardown k.generation)
      exact hpool.relabel hi rfl rfl

theorem reconnect (h : s.Sound) (i : Nat) : (s.step (.reconnect i)).Sound := by
  simp only [step, Session.step, Session.onHeld]
  cases hi : s.held[i]? with
  | none => exact h
  | some k =>
      dsimp only
      rw [Session.reconnect, Client.reconnect]
      rcases s.client.dial_cases with ⟨e, c, heq, hopens⟩ | ⟨new, c, heq, hopens⟩
      · rw [heq]
        exact (h.lose hopens).relabel hi rfl rfl
      · rw [heq]
        have hlose := h.lose hopens.drop
        obtain ⟨hlt, -⟩ := List.getElem?_eq_some_iff.mp hi
        have hset : (s.held.set i { k with connection := new }).Perm
            ({ k with connection := new } :: s.held.eraseIdx i) :=
          List.set_perm_cons_eraseIdx hlt _
        have hgenerations : (s.held.set i { k with connection := new }).map Held.generation =
            s.held.map Held.generation := map_set_of_eq hi rfl
        show Sound ⟨⟨c, s.held.set i { k with connection := new }⟩, s.dials, s.replacing⟩
        refine ⟨hlose.pool_size, ?_, hlose.dialled, ?_, hlose.length_le⟩
        · rw [hgenerations]
          exact hlose.accounted
        · rw [owned, Client.owned, hopens.idle_eq]
          have hothers : (s.client.pool.idle ++ (s.held.eraseIdx i).map Held.connection ++
              s.dials.flatMap Dial.opened).Sublist s.owned :=
            ((List.Sublist.refl _).append ((List.eraseIdx_sublist s.held i).map _)).append
              (List.Sublist.refl _)
          have hall := (h.exclusive.opens hopens).sublist
            (hothers.append (List.Sublist.refl [new]))
          apply hall.perm
          rw [List.append_assoc, List.append_assoc, List.append_assoc]
          apply List.Perm.append_left
          refine List.Perm.trans ?_ ((hset.map Held.connection).symm.append_right _)
          refine ((@List.perm_append_comm _ _ [new]).append_left _).trans ?_
          exact List.perm_middle

theorem step (h : s.Sound) (e : Event) : (s.step e).Sound := by
  cases e with
  | connect => exact h.connect
  | request => exact h.request
  | close => exact h.close
  | drop i => exact h.drop i
  | discard i => exact h.discard i
  | invalidate i => exact h.invalidate i
  | reconnect i => exact h.reconnect i
  | replace i => exact h.replace i
  | openNext i => exact h.openNext i
  | land i => exact h.land i

theorem run (h : s.Sound) (events : List Event) : (s.run events).Sound := by
  induction events generalizing s with
  | nil => exact h
  | cons e events ih => exact ih (h.step e)

end Sound
end Crowd
end ReplicaClient
