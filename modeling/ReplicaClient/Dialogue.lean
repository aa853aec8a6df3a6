import ReplicaClient.Error
import ReplicaClient.Request

/-!
# Dialogues

An operation of the client is a dialogue with the store: it ends with a result, or asks a
request and goes on with the reply or with the error that came in its place.  A dialogue does
not say how requests travel, so it can be held over a network as well as with any other
store that answers requests.
-/

namespace ReplicaClient

inductive Dialogue (α : Type) where
  | done (a : α)
  | ask (q : Request) (next : Except ClientError q.Reply → Dialogue α)

namespace Dialogue

variable {α β σ : Type}

def bind : Dialogue α → (α → Dialogue β) → Dialogue β
  | done a, f => f a
  | ask q next, f => ask q fun r ↦ (next r).bind f

instance : Monad Dialogue where
  pure := done
  bind := bind

@[simp] theorem bind_done (d : Dialogue α) : d.bind done = d := by
  induction d with
  | done a => rfl
  | ask q next ih => simp [bind, ih]

theorem bind_assoc {γ : Type} (d : Dialogue α) (f : α → Dialogue β) (g : β → Dialogue γ) :
    (d.bind f).bind g = d.bind fun a ↦ (f a).bind g := by
  induction d with
  | done a => rfl
  | ask q next ih => simp [bind, ih]

instance : LawfulMonad Dialogue :=
  LawfulMonad.mk' Dialogue bind_done (fun _ _ ↦ rfl) bind_assoc

/-- Asks one request and makes something of the reply. -/
def query (q : Request) (f : q.Reply → Except ClientError α) : Dialogue (Except ClientError α) :=
  ask q fun
    | .error e => done (.error e)
    | .ok r => done (f r)

/-- Asks one request on behalf of a handle.  The reply may change the handle; an error in its
place does not. -/
def update (handle : σ) (q : Request) (f : q.Reply → Except ClientError α × σ) :
    Dialogue (Except ClientError α × σ) :=
  ask q fun
    | .error e => done (.error e, handle)
    | .ok r => done (f r)

def refuse (e : ClientError) : Dialogue (Except ClientError α) :=
  done (.error e)

/-- Goes on after a success and ends with an error. -/
def andThen (d : Dialogue (Except ClientError α)) (f : α → Dialogue (Except ClientError β)) :
    Dialogue (Except ClientError β) :=
  d.bind fun
    | .error e => done (.error e)
    | .ok a => f a

/-- Holds a dialogue with a store that has a state and answers each request at once. -/
def run (answer : (q : Request) → σ → Except ClientError q.Reply × σ) :
    Dialogue α → σ → α × σ
  | done a, s => (a, s)
  | ask q next, s =>
      let (r, s) := answer q s
      run answer (next r) s

theorem run_bind (answer : (q : Request) → σ → Except ClientError q.Reply × σ) (d : Dialogue α)
    (f : α → Dialogue β) (s : σ) :
    run answer (d.bind f) s = run answer (f (run answer d s).1) (run answer d s).2 := by
  induction d generalizing s with
  | done a => rfl
  | ask q next ih => simp [bind, run, ih]

section Single

variable (answer : (q : Request) → σ → Except ClientError q.Reply × σ) (q : Request) (s : σ)

theorem run_query (f : q.Reply → Except ClientError α) :
    run answer (query q f) s = ((answer q s).1.bind f, (answer q s).2) := by
  rw [query, run]
  rcases answer q s with ⟨e | r, s'⟩ <;> rfl

theorem run_update {τ : Type} (handle : τ) (f : q.Reply → Except ClientError α × τ) :
    run answer (update handle q f) s =
      (match (answer q s).1 with
        | .error e => (.error e, handle)
        | .ok r => f r, (answer q s).2) := by
  rw [update, run]
  rcases answer q s with ⟨e | r, s'⟩ <;> rfl

end Single

end Dialogue
end ReplicaClient
