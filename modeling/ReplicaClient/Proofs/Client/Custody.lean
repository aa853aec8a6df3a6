import Mathlib.Data.List.Perm.Basic
import Mathlib.Logic.Relation
import ReplicaClient.Proofs.Client.Opening
import ReplicaClient.Proofs.Pool.Slots

/-!
# Who has which connection

A session is a client together with the connections that its callers hold.  Callers may take
connections, give them back much later and in any order, discard them, condemn the pool or
close it, while dials succeed or fail.  Every action is a series of moves, each of which keeps
the slots of the pool accounted for and every connection with one owner.
-/

namespace ReplicaClient

structure Session where
  client : Client
  held : List Held := []

namespace Session

/-- What callers do.  A held connection is named by its position. -/
inductive Action where
  | connect
  | acquire
  | close
  | drop (i : Nat)
  | discard (i : Nat)
  | invalidate (i : Nat)
  | reconnect (i : Nat)
  deriving DecidableEq, Repr

def new (config : Config) (environment : Environment) : Session :=
  { client := .new config environment }

def acquire (s : Session) : Session :=
  match s.client.acquire with
  | (.error _, client) => { s with client }
  | (.ok held, client) => { client, held := s.held ++ [held] }

def drop (s : Session) (i : Nat) (h : Held) : Session :=
  { client := s.client.giveBack h, held := s.held.eraseIdx i }

def discard (s : Session) (i : Nat) (h : Held) : Session :=
  { s with held := s.held.set i h.discard }

def invalidate (s : Session) (i : Nat) (h : Held) : Session :=
  { client := (s.client.invalidate h).2, held := s.held.set i (s.client.invalidate h).1 }

def reconnect (s : Session) (i : Nat) (h : Held) : Session :=
  { client := (s.client.reconnect h).2.2, held := s.held.set i (s.client.reconnect h).2.1 }

/-- Nothing happens where no connection is held. -/
def onHeld (s : Session) (i : Nat) (f : Session → Nat → Held → Session) : Session :=
  match s.held[i]? with
  | none => s
  | some h => f s i h

def step (s : Session) : Action → Session
  | .connect => { s with client := s.client.connect.2 }
  | .acquire => s.acquire
  | .close => { s with client := s.client.close }
  | .drop i => s.onHeld i drop
  | .discard i => s.onHeld i discard
  | .invalidate i => s.onHeld i invalidate
  | .reconnect i => s.onHeld i reconnect

def run (s : Session) (actions : List Action) : Session :=
  actions.foldl step s

/-- The action condemns every connection that is held when it is taken. -/
def EndsGeneration (s : Session) : Action → Prop
  | .connect | .close => True
  | .invalidate i => ∃ h, s.held[i]? = some h ∧ h.generation = s.client.pool.generation
  | _ => False

/-! ## Moves -/

/-- The parts of which actions consist. -/
inductive Move : Session → Session → Prop where
  | lose {c c' : Client} {held : List Held} (h : c.Opens [] c') : Move ⟨c, held⟩ ⟨c', held⟩
  | retire {c : Client} {held : List Held} (next : Phase) :
      Move ⟨c, held⟩ ⟨{ c with pool := c.pool.retire next }, held⟩
  | teardown {c : Client} {held : List Held} (g : Nat) :
      Move ⟨c, held⟩ ⟨{ c with pool := c.pool.teardown g }, held⟩
  | dialPool {c : Client} {held : List Held}
      (hphase : c.pool.phase = .uninitialized ∨ c.pool.phase = .closed) :
      Move ⟨c, held⟩ ⟨{ c with pool := { c.pool with phase := .connecting } }, held⟩
  | install {c c' : Client} {held : List Held} {ks : List Connection} (h : c.Opens ks c')
      (hlen : ks.length = c.config.poolSize) (g : Nat) :
      Move ⟨c, held⟩ ⟨{ c' with pool := c'.pool.install g ks }, held⟩
  | dialFailed {c : Client} {held : List Held} (g : Nat) :
      Move ⟨c, held⟩ ⟨{ c with pool := c.pool.dialFailed g }, held⟩
  | take {c : Client} {held : List Held} {k : Connection} {rest : List Connection}
      (hidle : c.pool.idle = k :: rest) :
      Move ⟨c, held⟩ ⟨{ c with pool := { c.pool with idle := rest } },
        held ++ [⟨k, c.pool.generation, true⟩]⟩
  | replace {c c' : Client} {held : List Held} {k : Connection}
      (hphase : c.pool.phase = .connected) (hroom : c.pool.opened < c.pool.size)
      (h : { c with pool := { c.pool with opened := c.pool.opened + 1 } }.Opens [k] c') :
      Move ⟨c, held⟩ ⟨c', held ++ [⟨k, c.pool.generation, true⟩]⟩
  | giveBack {c : Client} {held : List Held} {i : Nat} {h : Held} (hi : held[i]? = some h) :
      Move ⟨c, held⟩ ⟨c.giveBack h, held.eraseIdx i⟩
  | discard {c : Client} {held : List Held} {i : Nat} {h : Held} (hi : held[i]? = some h) :
      Move ⟨c, held⟩ ⟨c, held.set i h.discard⟩
  | reconnect {c c' : Client} {held : List Held} {i : Nat} {h : Held} {k : Connection}
      (hi : held[i]? = some h) (hopens : c.Opens [k] c') :
      Move ⟨c, held⟩ ⟨c', held.set i { h with connection := k }⟩

abbrev Moves : Session → Session → Prop :=
  Relation.ReflTransGen Move

open Relation

theorem establish_moves (c : Client) (held : List Held) (g : Nat) :
    Moves ⟨c, held⟩ ⟨(c.establish g).2, held⟩ := by
  unfold Client.establish
  rcases c.dialAll_cases with ⟨e, c', heq, hopens⟩ | ⟨ks, c', heq, hopens, hlen⟩
  · rw [heq]
    exact .tail (.single (.lose hopens)) (.dialFailed g)
  · rw [heq]
    exact .single (.install hopens hlen g)

theorem connect_moves (c : Client) (held : List Held) :
    Moves ⟨c, held⟩ ⟨c.connect.2, held⟩ := by
  unfold Client.connect
  cases c.pool.checkSize with
  | error e => exact .refl
  | ok u => exact .head (.retire .connecting) (establish_moves _ _ _)

theorem close_moves (c : Client) (held : List Held) : Moves ⟨c, held⟩ ⟨c.close, held⟩ := by
  unfold Client.close
  rcases c.pool.close_cases with ⟨heq, -⟩ | heq
  · rw [heq]
  · rw [heq]
    exact .single (.retire .closed)

/-- What becomes of a session when an attempt to get a connection has ended. -/
def receive (held : List Held) : Except ClientError Held × Client → Session
  | (.error _, client) => ⟨client, held⟩
  | (.ok h, client) => ⟨client, held ++ [h]⟩

/-- A failed replacement gives back the slot that was set aside for it. -/
theorem opens_forget {c c' : Client}
    (h : { c with pool := { c.pool with opened := c.pool.opened + 1 } }.Opens [] c') :
    c.Opens [] { c' with pool := c'.pool.forget c.pool.generation } := by
  have hpool : c'.pool.forget c.pool.generation = { c.pool with nextId := c'.pool.nextId } := by
    rw [h.pool]
    simp [Pool.forget]
  refine ⟨h.config, ?_, h.environment, h.received, h.channels, ?_, by simp, by simp,
    List.nodup_nil, List.nodup_nil⟩
  · simp only [hpool]
  · simpa only [hpool] using h.nextId_le

theorem replace_moves (c : Client) (held : List Held) (hphase : c.pool.phase = .connected)
    (hroom : c.pool.opened < c.pool.size) :
    Moves ⟨c, held⟩ (receive held
      ({ c with pool := { c.pool with opened := c.pool.opened + 1 } }.replace c.pool.generation)) := by
  unfold Client.replace
  rcases Client.dial_cases { c with pool := { c.pool with opened := c.pool.opened + 1 } } with
    ⟨e, c', heq, hopens⟩ | ⟨k, c', heq, hopens⟩
  · rw [heq]
    exact .single (.lose (opens_forget hopens))
  · rw [heq]
    exact .single (.replace hphase hroom hopens)

theorem acquireConnected_moves (c : Client) (held : List Held) :
    Moves ⟨c, held⟩ (receive held c.acquireConnected) := by
  unfold Client.acquireConnected
  rcases c.pool.request_cases with
    ⟨k, rest, hphase, hidle, heq⟩ | ⟨hphase, hidle, hroom, heq⟩ | heq | ⟨hphase, heq⟩
  · rw [heq]
    exact .single (.take hidle)
  · rw [heq]
    exact replace_moves c held hphase hroom
  · rw [heq]
    exact .refl
  · rw [heq]
    exact .refl

theorem acquire_moves (c : Client) (held : List Held) :
    Moves ⟨c, held⟩ (receive held c.acquire) := by
  unfold Client.acquire
  rcases c.pool.request_cases with
    ⟨k, rest, hphase, hidle, heq⟩ | ⟨hphase, hidle, hroom, heq⟩ | heq | ⟨hphase, heq⟩
  · rw [heq]
    exact acquireConnected_moves c held
  · rw [heq]
    exact acquireConnected_moves c held
  · rw [heq]
    exact acquireConnected_moves c held
  · rw [heq]
    dsimp only
    cases c.pool.checkSize with
    | error e => exact .refl
    | ok u =>
        have hdial := establish_moves { c with pool := { c.pool with phase := .connecting } } held
          c.pool.generation
        have hmoves := hdial.head (.dialPool hphase)
        dsimp only
        cases hestablish : Client.establish { c with pool := { c.pool with phase := .connecting } }
            c.pool.generation with
        | mk result c' =>
            rw [hestablish] at hmoves
            cases result with
            | error e => exact hmoves
            | ok u => exact hmoves.trans (acquireConnected_moves c' held)

/-- Every action is a series of moves. -/
theorem step_moves (s : Session) (a : Action) : Moves s (s.step a) := by
  obtain ⟨c, held⟩ := s
  have honHeld {i : Nat} {f : Session → Nat → Held → Session}
      (hf : ∀ h, held[i]? = some h → Moves ⟨c, held⟩ (f ⟨c, held⟩ i h)) :
      Moves ⟨c, held⟩ (onHeld ⟨c, held⟩ i f) := by
    unfold onHeld
    cases hi : held[i]? with
    | none => exact .refl
    | some h => exact hf h hi
  cases a with
  | connect => exact connect_moves c held
  | acquire =>
      have hmoves := acquire_moves c held
      simp only [step, acquire]
      cases hacquire : c.acquire with
      | mk result c' =>
          rw [hacquire] at hmoves
          cases result <;> exact hmoves
  | close => exact close_moves c held
  | drop i => exact honHeld fun h hi ↦ .single (.giveBack hi)
  | discard i => exact honHeld fun h hi ↦ .single (.discard hi)
  | invalidate i =>
      exact honHeld fun h hi ↦ .head (.teardown h.generation) (.single (.discard hi))
  | reconnect i =>
      refine honHeld fun h hi ↦ ?_
      unfold reconnect Client.reconnect
      rcases c.dial_cases with ⟨e, c', heq, hopens⟩ | ⟨k, c', heq, hopens⟩
      · simp only [heq]
        have hset : held.set i h = held := by
          obtain ⟨hlt, rfl⟩ := List.getElem?_eq_some_iff.mp hi
          exact List.set_getElem_self hlt
        rw [hset]
        exact .single (.lose hopens)
      · simp only [heq]
        exact .single (.reconnect hi hopens)

end Session
end ReplicaClient
