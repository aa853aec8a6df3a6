import ReplicaClient.Dialogue

/-!
# What a dialogue can come to

A dialogue branches at every reply.  Its traces are the ways through it, and what holds along every
branch holds of every trace.
-/

namespace ReplicaClient

namespace Dialogue

variable {α β σ : Type} {P : Request → Prop} {Q : α → Prop} {R : β → Prop}

/-- A reply from outside.  That there is no object is for the client to find. -/
def Heard {ρ : Type} (reply : Except ClientError ρ) : Prop :=
  ∀ o, reply ≠ .error (.notFound o)

/-- The dialogue can ask these requests one after the other and then end so. -/
inductive Trace : Dialogue α → List Request → α → Prop where
  | done (a : α) : Trace (.done a) [] a
  | ask {q : Request} {next : Except ClientError q.Reply → Dialogue α} {log : List Request} {a : α}
      (reply : Except ClientError q.Reply) (hheard : Heard reply)
      (rest : Trace (next reply) log a) : Trace (.ask q next) (q :: log) a

/-- Whatever is replied, all requests are of one kind, and so are all ends. -/
def Keeps (P : Request → Prop) (Q : α → Prop) : Dialogue α → Prop
  | done a => Q a
  | ask q next => P q ∧ ∀ reply, Heard reply → Keeps P Q (next reply)

theorem Keeps.of_trace {d : Dialogue α} (h : d.Keeps P Q) {log : List Request} {a : α}
    (htrace : d.Trace log a) : (∀ q ∈ log, P q) ∧ Q a := by
  induction htrace with
  | done a => exact ⟨List.forall_mem_nil P, h⟩
  | ask reply hheard _ ih =>
      obtain ⟨hlog, ha⟩ := ih (h.2 reply hheard)
      exact ⟨List.forall_mem_cons.mpr ⟨h.1, hlog⟩, ha⟩

theorem Keeps.bind {d : Dialogue α} (h : d.Keeps P Q) {f : α → Dialogue β}
    (hf : ∀ a, Q a → (f a).Keeps P R) : (d.bind f).Keeps P R := by
  induction d with
  | done a => exact hf a h
  | ask q next ih => exact ⟨h.1, fun reply hheard ↦ ih reply (h.2 reply hheard)⟩

theorem keeps_query {q : Request} {f : q.Reply → Except ClientError α}
    {Q : Except ClientError α → Prop} (hq : P q) (hok : ∀ reply, Q (f reply))
    (herror : ∀ e, (∀ o, e ≠ .notFound o) → Q (.error e)) : (query q f).Keeps P Q := by
  refine ⟨hq, fun reply hheard ↦ ?_⟩
  cases reply with
  | error e => exact herror e fun o heq ↦ hheard o (congrArg Except.error heq)
  | ok reply => exact hok reply

theorem keeps_update {q : Request} {handle : σ} {f : q.Reply → Except ClientError α × σ}
    {Q : Except ClientError α × σ → Prop} (hq : P q) (hok : ∀ reply, Q (f reply))
    (herror : ∀ e, (∀ o, e ≠ .notFound o) → Q (.error e, handle)) :
    (update handle q f).Keeps P Q := by
  refine ⟨hq, fun reply hheard ↦ ?_⟩
  cases reply with
  | error e => exact herror e fun o heq ↦ hheard o (congrArg Except.error heq)
  | ok reply => exact hok reply

end Dialogue

/-! ## Buckets of requests -/

namespace Request

open Wire

/-- The name of the bucket in a request that has a place for one. -/
def bucket? : Request → Option Bytes
  | .get q => some q.bucket
  | .put q => some q.bucket
  | .delete q => some q.bucket
  | .listKeys bucket _ => some bucket
  | .getBucket bucket _ => some bucket
  | .setBucket bucket _ _ => some bucket
  | .resetBucket bucket _ => some bucket
  | .index bucket _ _ _ => some bucket
  | .counterUpdate q => some q.bucket
  | .counterGet q => some q.bucket
  | .dataTypeFetch q => some q.bucket
  | .dataTypeUpdate q => some q.bucket
  | _ => none

/-- The name is sent as the first field of the message in the frame. -/
theorem frame_of_bucket? {q : Request} {name : Bytes} (h : q.bucket? = some name) :
    ∃ t rest, q.frame = Frame.encodeMessage q.code t (Slot.ofBytes name :: rest) := by
  cases q <;> cases h <;> exact ⟨_, _, rfl⟩

/-- The request has a place for no bucket but this one. -/
def Names (name : String) (q : Request) : Prop :=
  ∀ b, q.bucket? = some b → b = Utf8.encode name

theorem names_of_eq {name : String} {q : Request} (h : q.bucket? = some (Utf8.encode name)) :
    q.Names name := by
  intro b hb
  rw [h] at hb
  exact (Option.some.inj hb).symm

end Request
end ReplicaClient
