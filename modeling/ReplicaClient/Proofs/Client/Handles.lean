import ReplicaClient.Counter
import ReplicaClient.DataType.Handle
import ReplicaClient.Proofs.Client.Faults

/-!
# Handles and failed requests

A handle changes when its request has been answered and not before.  So whatever a request fails
with, the handle is as it was and the request can be made again.  Only a reload that finds nothing
makes a change and reports an error: the object loses its value and takes the clock of the
tombstone over.
-/

namespace ReplicaClient

/-- A call that has no way to change the handle it is made on. -/
def Dialogue.keeping {σ : Type} (d : Dialogue (Except ClientError Unit)) (handle : σ) :
    Dialogue (Except ClientError Unit × σ) :=
  d.bind fun result ↦ .done (result, handle)

/-! ## The calls -/

namespace Object

inductive Call where
  | store
  | reload
  | delete
  deriving DecidableEq, Repr

def Call.perform (o : Object) : Call → Dialogue (Except ClientError Unit × Object)
  | store => o.store
  | reload => o.reload
  | delete => o.delete.keeping o

/-- The object without a value, under the clock of a tombstone. -/
def entombed (o : Object) (clock : Bytes) : Object :=
  { o with
    vclock := clock
    contentType := ""
    data := []
    links := []
    metadata := []
    indexes := []
    siblings := []
    state := .clean }

end Object

namespace Counter

inductive Call where
  | reload
  | increment (amount : Int64) (readBack : Bool)
  | decrement (amount : Int64) (readBack : Bool)
  | destroy
  deriving DecidableEq, Repr

def Call.perform (n : Counter) : Call → Dialogue (Except ClientError Unit × Counter)
  | reload => n.reload
  | increment amount readBack => n.add amount readBack
  | decrement amount readBack => n.subtract amount readBack
  | destroy => n.destroy.keeping n

end Counter

namespace DataType.Handle

inductive Call where
  | store
  | destroy
  deriving DecidableEq, Repr

def Call.perform (h : Handle) : Call → Dialogue (Except ClientError Unit × Handle)
  | store => h.store
  | destroy => h.destroy.keeping h

end DataType.Handle

namespace Bucket

inductive Call where
  | refresh
  | setNVal (n : UInt32)
  | setAllowMult (on : Bool)
  | setLastWriteWins (on : Bool)
  | setSearch (on : Bool)
  | resetProperties
  deriving DecidableEq, Repr

def Call.perform (b : Bucket) : Call → Dialogue (Except ClientError Unit × Bucket)
  | refresh => b.refresh
  | setNVal n => b.setNVal n
  | setAllowMult on => b.setAllowMult on
  | setLastWriteWins on => b.setLastWriteWins on
  | setSearch on => b.setSearch on
  | resetProperties => b.resetProperties

end Bucket

/-! ## What a failure leaves -/

namespace Client

variable {σ : Type} {c : Client}

/-- If the client reports an error for the call, the handle is as it was. -/
def Spares (c : Client) (handle : σ) (call : Dialogue (Except ClientError Unit × σ)) : Prop :=
  ∀ e, (c.run call).1.1 = .error e → (c.run call).1.2 = handle

theorem run_keeping (c : Client) (handle : σ) (d : Dialogue (Except ClientError Unit)) :
    (c.run (d.keeping handle)).1 = ((c.run d).1, handle) := by
  rw [run, Dialogue.keeping, Dialogue.run_bind]
  rfl

theorem spares_keeping (c : Client) (handle : σ) (d : Dialogue (Except ClientError Unit)) :
    c.Spares handle (d.keeping handle) := by
  intro e _
  rw [run_keeping]

theorem run_update (c : Client) (handle : σ) (q : Request)
    (f : q.Reply → Except ClientError Unit × σ) :
    (c.run (.update handle q f)).1 =
      match (c.answer q).1 with
      | .error e => (.error e, handle)
      | .ok r => f r :=
  congrArg Prod.fst (Dialogue.run_update answer q c handle f)

/-- A handle that takes a reply over without complaint is spared by every error. -/
theorem spares_update (c : Client) (handle : σ) (q : Request) (f : q.Reply → σ) :
    c.Spares handle (.update handle q fun r ↦ (.ok (), f r)) := by
  intro e herror
  rw [run_update] at herror ⊢
  cases hanswer : (c.answer q).1 with
  | error e' => rfl
  | ok r =>
      rw [hanswer] at herror
      cases herror

theorem spares_subtract (c : Client) (n : Counter) (amount : Int64) (readBack : Bool) :
    c.Spares n (n.subtract amount readBack) := by
  unfold Counter.subtract
  split
  · exact fun _ _ ↦ rfl
  · exact c.spares_update n _ _

/-- Resetting reads the properties back, and an error of either request spares the bucket. -/
theorem spares_resetProperties (c : Client) (b : Bucket) : c.Spares b b.resetProperties := by
  intro e herror
  simp only [run, Bucket.resetProperties, Dialogue.run] at herror ⊢
  cases hanswer : c.answer (.resetBucket b.nameBytes b.typeBytes) with
  | mk result c' =>
      rw [hanswer] at herror
      cases result with
      | error e' => rfl
      | ok _ => exact c'.spares_update b _ _ e herror

/-- The one reply to a reload that is reported as an error is that there is nothing. -/
theorem afterReload_of_error {o : Object} {reply : GetReply} {e : ClientError}
    (h : (o.afterReload reply).1 = .error e) :
    reply.contents = [] ∧ reply.unchanged.getD false = false ∧
      (o.afterReload reply).2 = o.entombed (reply.vclock.getD []) ∧
      e = .notFound (o.afterReload reply).2 := by
  unfold Object.afterReload at h ⊢
  cases hunchanged : reply.unchanged.getD false with
  | true => simp [hunchanged] at h
  | false =>
      cases hcontents : reply.contents with
      | cons content contents => simp [hunchanged, hcontents] at h
      | nil =>
          simp only [hunchanged, hcontents, Bool.false_eq_true, if_false, Except.error.injEq] at h ⊢
          exact ⟨trivial, trivial, rfl, h.symm⟩

theorem run_reload (c : Client) {o : Object} (hkey : ¬o.key.isEmpty = true) :
    (c.run o.reload).1 =
      match (c.answer o.reloadRequest).1 with
      | .error e => (.error e, o)
      | .ok reply => o.afterReload reply := by
  rw [Object.reload, if_neg hkey]
  refine (c.run_update o o.reloadRequest o.afterReload).trans ?_
  cases (c.answer o.reloadRequest).1 <;> rfl

/-- A reload that reports an error spares the object, unless the store has nothing under its key. -/
theorem reload_of_error (c : Client) (o : Object) {e : ClientError}
    (herror : (c.run o.reload).1.1 = .error e) :
    ((c.run o.reload).1.2 = o ∧ ∀ tombstone, e ≠ .notFound tombstone) ∨
    ∃ reply : GetReply, (c.answer o.reloadRequest).1 = .ok reply ∧ reply.contents = [] ∧
      reply.unchanged.getD false = false ∧
      (c.run o.reload).1.2 = o.entombed (reply.vclock.getD []) ∧
      e = .notFound (c.run o.reload).1.2 := by
  by_cases hkey : o.key.isEmpty = true
  · have hrun : c.run o.reload = ((.error .emptyKey, o), c) := by
      rw [Object.reload, if_pos hkey]
      rfl
    rw [hrun] at herror ⊢
    cases herror
    exact Or.inl ⟨rfl, fun _ h ↦ by cases h⟩
  · have hexchanged := c.exchanged_answer o.reloadRequest
    rw [c.run_reload hkey] at herror ⊢
    cases hanswer : (c.answer o.reloadRequest).1 with
    | error e' =>
        rw [hanswer] at herror
        cases herror
        refine Or.inl ⟨rfl, ?_⟩
        rintro tombstone rfl
        exact hexchanged _ hanswer
    | ok reply =>
        rw [hanswer] at herror
        obtain ⟨hcontents, hunchanged, hleft, he⟩ := afterReload_of_error herror
        exact Or.inr ⟨reply, rfl, hcontents, hunchanged, hleft, he⟩

/-- Whatever a call on a handle fails with, the handle is left as it was.  The exception is a
reload that finds nothing: the object that it leaves has no value, and the clock of the tombstone. -/
theorem handle_of_error (c : Client) :
    (∀ (call : Counter.Call) (n : Counter), c.Spares n (call.perform n)) ∧
    (∀ (call : DataType.Handle.Call) (h : DataType.Handle), c.Spares h (call.perform h)) ∧
    (∀ (call : Bucket.Call) (b : Bucket), c.Spares b (call.perform b)) ∧
    (∀ (call : Object.Call) (o : Object), call ≠ .reload → c.Spares o (call.perform o)) ∧
    ∀ (o : Object) (e : ClientError), (c.run (Object.Call.reload.perform o)).1.1 = .error e →
      ((c.run (Object.Call.reload.perform o)).1.2 = o ∧ ∀ tombstone, e ≠ .notFound tombstone) ∨
      ∃ reply : GetReply, (c.answer o.reloadRequest).1 = .ok reply ∧ reply.contents = [] ∧
        reply.unchanged.getD false = false ∧
        (c.run (Object.Call.reload.perform o)).1.2 = o.entombed (reply.vclock.getD []) ∧
        e = .notFound (c.run (Object.Call.reload.perform o)).1.2 := by
  refine ⟨?_, ?_, ?_, ?_, fun o e ↦ c.reload_of_error o⟩
  · intro call n
    cases call with
    | reload => exact c.spares_update n _ _
    | increment amount readBack => exact c.spares_update n _ _
    | decrement amount readBack => exact c.spares_subtract n amount readBack
    | destroy => exact c.spares_keeping n _
  · intro call h
    cases call with
    | store => exact c.spares_update h _ _
    | destroy => exact c.spares_keeping h _
  · intro call b
    cases call with
    | resetProperties => exact c.spares_resetProperties b
    | _ => exact c.spares_update b _ _
  · intro call o hcall
    cases call with
    | store => exact c.spares_update o _ _
    | reload => exact absurd rfl hcall
    | delete => exact c.spares_keeping o _

end Client
end ReplicaClient
