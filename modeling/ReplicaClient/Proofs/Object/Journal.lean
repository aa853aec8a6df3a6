import Mathlib.Data.List.Induction
import ReplicaClient.Object.Conflict
import ReplicaClient.Proofs.Object.Replies

/-!
# The life of an object

An object is fetched, edited, resolved, reloaded, stored and deleted in any order, while its peer
answers as it likes or not at all.  A journal keeps every request with what was heard in reply.
Whatever happens is one of a few turns, and each of them tells what becomes of the clock, of the
state and of the siblings.
-/

namespace ReplicaClient

/-! ## Journals -/

inductive Call where
  | fetch
  | store
  | reload
  | delete
  deriving DecidableEq, Repr

/-- A request and what came back. -/
structure Entry where
  call : Call
  request : Request
  outcome : Except ClientError request.Reply

abbrev Journal := List Entry

namespace Entry

def getReply? : Entry → Option GetReply
  | ⟨_, .get _, .ok reply⟩ => some reply
  | _ => none

def putReply? : Entry → Option PutReply
  | ⟨_, .put _, .ok reply⟩ => some reply
  | _ => none

def saysUnchanged (e : Entry) : Bool :=
  (e.getReply?.bind GetReply.unchanged).getD false

/-- Only a fetch, which offers no clock, takes no notice of the mark that nothing has changed. -/
def disregarded (e : Entry) : Bool :=
  e.call ≠ .fetch && e.saysUnchanged

/-- The clock that a reply brings, which is empty if the reply does not name one. -/
def clockHeard? (e : Entry) : Option Bytes :=
  if e.disregarded then none
  else (e.getReply?.map fun reply ↦ reply.vclock.getD []).or
    (e.putReply?.map fun reply ↦ reply.vclock.getD [])

def contents? (e : Entry) : Option (List Content) :=
  (e.getReply?.map GetReply.contents).filter (· ≠ [])

/-- The contents of a reply to a read, if there are any. -/
def shown? (e : Entry) : Option (List Content) :=
  if e.disregarded then none else e.contents?

/-- The clock that a write or a reload offers. -/
def clockSent? : Entry → Option (Option Bytes)
  | ⟨_, .put q, _⟩ => some q.vclock
  | ⟨_, .delete q, _⟩ => some q.vclock
  | ⟨.reload, .get q, _⟩ => some q.ifModified
  | _ => none

/-- Nothing is heard where no reply comes. -/
theorem disregarded_error (call : Call) (q : Request) (e : ClientError) :
    (⟨call, q, .error e⟩ : Entry).disregarded = false := by
  have hget : (⟨call, q, .error e⟩ : Entry).getReply? = none := by
    cases q <;> rfl
  rw [disregarded, saysUnchanged, hget]
  exact Bool.and_false _

theorem clockHeard?_error (call : Call) (q : Request) (e : ClientError) :
    (⟨call, q, .error e⟩ : Entry).clockHeard? = none := by
  rw [clockHeard?, disregarded_error]
  cases q <;> rfl

theorem shown?_error (call : Call) (q : Request) (e : ClientError) :
    (⟨call, q, .error e⟩ : Entry).shown? = none := by
  rw [shown?, disregarded_error]
  cases q <;> rfl

/-- If the request offers a clock, it is this one. -/
def Offers (e : Entry) (clock : Bytes) : Prop :=
  ∀ c, e.clockSent? = some c → c = nonEmpty clock

end Entry

namespace Journal

variable {α : Type}

/-- The last of what the entries tell. -/
def last (f : Entry → Option α) (journal : Journal) : Option α :=
  journal.reverse.findSome? f

theorem last_concat (f : Entry → Option α) (journal : Journal) (e : Entry) :
    last f (journal ++ [e]) = (f e).or (last f journal) := by
  rw [last, List.reverse_concat, List.findSome?_cons, last]
  cases f e <;> rfl

theorem last_concat_of_none {f : Entry → Option α} {e : Entry} (h : f e = none)
    (journal : Journal) : last f (journal ++ [e]) = last f journal := by
  rw [last_concat, h, Option.none_or]

theorem last_concat_of_some {f : Entry → Option α} {e : Entry} {a : α} (h : f e = some a)
    (journal : Journal) : last f (journal ++ [e]) = some a := by
  rw [last_concat, h, Option.some_or]

theorem last_congr {f g : Entry → Option α} {journal : Journal}
    (h : ∀ e ∈ journal, f e = g e) : last f journal = last g journal := by
  induction journal using List.reverseRecOn with
  | nil => rfl
  | append_singleton journal e ih =>
      rw [last_concat, last_concat, h e List.mem_concat_self,
        ih fun e' he' ↦ h e' (List.mem_append_left _ he')]

end Journal

/-! ## Lives -/

/-- Whoever answers does so by all that has been said.  That there is no object is for the client to
find, and never comes from the peer. -/
structure Peer where
  reply : Journal → (q : Request) → Except ClientError q.Reply
  notFound_ne : ∀ past q o, reply past q ≠ .error (.notFound o)

namespace Peer

def answer (peer : Peer) (call : Call) (q : Request) (past : Journal) :
    Except ClientError q.Reply × Journal :=
  (peer.reply past q, past ++ [⟨call, q, peer.reply past q⟩])

variable {α σ : Type} (peer : Peer) (call : Call) (q : Request) (past : Journal)

theorem run_query (f : q.Reply → Except ClientError α) :
    (Dialogue.query q f).run (peer.answer call) past =
      ((peer.reply past q).bind f, past ++ [⟨call, q, peer.reply past q⟩]) :=
  Dialogue.run_query (peer.answer call) q past f

theorem run_update (handle : σ) (f : q.Reply → Except ClientError α × σ) :
    (Dialogue.update handle q f).run (peer.answer call) past =
      (match peer.reply past q with
        | .error e => (.error e, handle)
        | .ok reply => f reply, past ++ [⟨call, q, peer.reply past q⟩]) :=
  Dialogue.run_update (peer.answer call) q past handle f

end Peer

namespace Object

/-- The value of an object as one of its versions. -/
def value (o : Object) : Sibling where
  contentType := o.contentType
  data := o.data
  links := o.links
  metadata := o.metadata
  indexes := o.indexes
  vtag := o.vtag
  lastMod := o.lastMod
  lastModUsecs := o.lastModUsecs

theorem adopt_value (o : Object) : o.adopt o.value = o :=
  rfl

end Object

/-- A resolver that makes a value of what it gets, and leaves everything else alone. -/
structure Merger (ρ : Type) where
  resolver : Resolver ρ
  exists_adopt : ∀ count o, ∃ value, (resolver count o).2.2 = o.adopt value

namespace Merger

def refusing : Merger Unit where
  resolver := noResolver
  exists_adopt _ o := ⟨o.value, o.adopt_value.symm⟩

/-- Takes over one of the versions, if there are that many. -/
def adopting (index : Nat) : Merger Unit where
  resolver _ o :=
    ((), if (o.adoptSibling index).1 then .ok () else .error (.resolution "no such sibling"),
      (o.adoptSibling index).2)
  exists_adopt _ o := by
    dsimp only
    rw [Object.adoptSibling]
    split
    · exact ⟨_, rfl⟩
    · exact ⟨o.value, o.adopt_value.symm⟩

end Merger

structure Life where
  object : Object
  journal : Journal := []

namespace Life

inductive Action where
  | fetch (options : Options)
  | store
  | reload
  | delete
  | edit (value : Sibling)
  | configure (options : Options)
  | adoptSibling (index : Nat)
  | resolve (merger : Merger Unit)

def new (bucket : String) (bucketType : Option String) (key : String) : Life :=
  { object := { bucket, bucketType, key } }

/-- A fetch makes a new object for the same place, which may be that of a tombstone. -/
def fetch (peer : Peer) (l : Life) (options : Options) : Life :=
  match (Object.fetch l.object.bucket l.object.bucketType l.object.key options).run
      (peer.answer .fetch) l.journal with
  | (.ok object, journal) => ⟨object, journal⟩
  | (.error (.notFound object), journal) => ⟨object, journal⟩
  | (.error _, journal) => ⟨l.object, journal⟩

def use (peer : Peer) (l : Life) (call : Call)
    (act : Object → Dialogue (Except ClientError Unit × Object)) : Life :=
  let ((_, object), journal) := (act l.object).run (peer.answer call) l.journal
  ⟨object, journal⟩

def step (peer : Peer) (l : Life) : Action → Life
  | .fetch options => l.fetch peer options
  | .store => l.use peer .store Object.store
  | .reload => l.use peer .reload Object.reload
  | .delete => ⟨l.object, (l.object.delete.run (peer.answer .delete) l.journal).2⟩
  | .edit value => { l with object := l.object.adopt value }
  | .configure options => { l with object := { l.object with options } }
  | .adoptSibling index => { l with object := (l.object.adoptSibling index).2 }
  | .resolve merger => { l with object := (l.object.resolve merger.resolver).2.2 }

def run (peer : Peer) (l : Life) (actions : List Action) : Life :=
  actions.foldl (step peer) l

end Life

/-! ## Turns -/

/-- What an object is like that holds just these contents. -/
def Object.Holds (o : Object) (contents : List Content) : Prop :=
  if contents.length ≤ 1 then o.state = .clean ∧ o.siblings = []
  else o.state = .conflicted ∧ o.siblings = contents.map Sibling.ofContent

theorem Object.holds_setContent (o : Object) {contents : List Content} (hne : contents ≠ []) :
    (o.setContent contents).Holds contents := by
  rcases contents with _ | ⟨c, _ | ⟨c', contents⟩⟩
  · exact absurd rfl hne
  · exact ⟨rfl, rfl⟩
  · exact ⟨rfl, rfl⟩

namespace Life

/-- What can become of an object and its journal. -/
inductive Turn (l : Life) : Life → Prop where
  /-- The value or the options have changed, if anything has. -/
  | edit (o : Object) (hclock : o.vclock = l.object.vclock) (hstate : o.state = l.object.state)
      (hsiblings : o.siblings = l.object.siblings) : Turn l ⟨o, l.journal⟩
  /-- A conflict has been resolved. -/
  | settle (o : Object) (hclock : o.vclock = l.object.vclock) (hstate : o.state = .clean)
      (hsiblings : o.siblings = []) : Turn l ⟨o, l.journal⟩
  /-- A conflict has not been resolved. -/
  | retain (o : Object) (hclock : o.vclock = l.object.vclock)
      (hconflict : l.object.state ≠ .clean) (hstate : o.state = .conflicted)
      (hsiblings : o.siblings = l.object.siblings) : Turn l ⟨o, l.journal⟩
  /-- A request has brought nothing for the object. -/
  | ask (e : Entry) (hoffers : e.Offers l.object.vclock) (hheard : e.clockHeard? = none)
      (hshown : e.shown? = none) : Turn l ⟨l.object, l.journal ++ [e]⟩
  /-- A write was acknowledged. -/
  | store (e : Entry) (o : Object) (hoffers : e.Offers l.object.vclock)
      (hheard : e.clockHeard? = some o.vclock) (hshown : e.shown? = none)
      (hstate : o.state = l.object.state) (hsiblings : o.siblings = l.object.siblings) :
      Turn l ⟨o, l.journal ++ [e]⟩
  /-- A read was answered. -/
  | receive (e : Entry) (o : Object) (contents : List Content) (hoffers : e.Offers l.object.vclock)
      (hheard : e.clockHeard? = some o.vclock)
      (hshown : e.shown? = (some contents).filter (· ≠ [])) (hholds : o.Holds contents) :
      Turn l ⟨o, l.journal ++ [e]⟩

/-! ### Requests and their entries -/

variable {l : Life}

theorem ask_of_error {call : Call} {q : Request} {e : ClientError}
    (hoffers : (⟨call, q, .error e⟩ : Entry).Offers l.object.vclock) :
    Turn l ⟨l.object, l.journal ++ [⟨call, q, .error e⟩]⟩ :=
  Turn.ask _ hoffers (Entry.clockHeard?_error call q e) (Entry.shown?_error call q e)

/-- What a read brings, unless its reply is disregarded. -/
theorem receive_of_get {call : Call} {q : GetRequest} {reply : GetReply} {o : Object}
    (hoffers : (⟨call, .get q, .ok reply⟩ : Entry).Offers l.object.vclock)
    (hregarded : (⟨call, .get q, .ok reply⟩ : Entry).disregarded = false)
    (hclock : o.vclock = reply.vclock.getD []) (hholds : o.Holds reply.contents) :
    Turn l ⟨o, l.journal ++ [⟨call, .get q, .ok reply⟩]⟩ := by
  apply Turn.receive _ _ reply.contents hoffers
  · rw [Entry.clockHeard?, hregarded, hclock]
    rfl
  · rw [Entry.shown?, hregarded]
    rfl
  · exact hholds

/-! ### Actions -/

variable (peer : Peer) (l)

theorem fetch_turns (options : Options) : Turn l (l.fetch peer options) := by
  simp only [fetch, Object.fetch, Dialogue.query, Dialogue.run, Object.fetchRequest, Peer.answer]
  generalize GetRequest.mk _ _ _ _ _ _ _ _ _ = q
  have hoffers (outcome : Except ClientError GetReply) :
      (⟨.fetch, .get q, outcome⟩ : Entry).Offers l.object.vclock := by
    intro c hsent
    cases hsent
  cases hreply : peer.reply l.journal (.get q) with
  | error e =>
      cases e with
      | notFound o => exact absurd hreply (peer.notFound_ne l.journal _ o)
      | _ => exact ask_of_error (hoffers _)
  | ok reply =>
      dsimp only [Dialogue.run, Object.afterFetch]
      cases hcontents : reply.contents with
      | nil =>
          apply receive_of_get (hoffers _) rfl rfl
          rw [hcontents]
          exact ⟨rfl, rfl⟩
      | cons c contents =>
          apply receive_of_get (hoffers _) rfl
          · exact Object.vclock_setContent _ _
          · rw [hcontents]
            exact Object.holds_setContent _ (List.cons_ne_nil c contents)

theorem store_turns : Turn l (l.step peer .store) := by
  simp only [step, use, Object.store, Dialogue.update, Dialogue.run, Peer.answer]
  cases hreply : peer.reply l.journal (.put l.object.putRequest) with
  | error e =>
      apply ask_of_error
      rintro c ⟨⟩
      rfl
  | ok reply =>
      have hkept := l.object.afterPut_keeps reply
      apply Turn.store
      · rintro c ⟨⟩
        rfl
      · exact congrArg some (l.object.vclock_afterPut reply).symm
      · rfl
      · exact hkept.1
      · exact hkept.2

theorem reload_turns : Turn l (l.step peer .reload) := by
  simp only [step, use, Object.reload]
  by_cases hkey : l.object.key.isEmpty = true
  · rw [if_pos hkey]
    exact Turn.edit _ rfl rfl rfl
  · rw [if_neg hkey]
    simp only [Dialogue.update, Dialogue.run, Object.reloadRequest, Peer.answer]
    generalize hq : GetRequest.mk _ _ _ _ _ _ _ _ _ = q
    have hoffers (outcome : Except ClientError GetReply) :
        (⟨.reload, .get q, outcome⟩ : Entry).Offers l.object.vclock := by
      rintro c ⟨⟩
      rw [← hq]
    cases hreply : peer.reply l.journal (.get q) with
    | error e => exact ask_of_error (hoffers _)
    | ok reply =>
        dsimp only [Dialogue.run, Object.afterReload]
        cases hunchanged : reply.unchanged.getD false with
        | true =>
            have hdisregarded : (⟨.reload, .get q, .ok reply⟩ : Entry).disregarded = true :=
              hunchanged
            apply Turn.ask _ (hoffers _)
            · rw [Entry.clockHeard?, hdisregarded]
              rfl
            · rw [Entry.shown?, hdisregarded]
              rfl
        | false =>
            have hregarded : (⟨.reload, .get q, .ok reply⟩ : Entry).disregarded = false :=
              hunchanged
            cases hcontents : reply.contents with
            | nil =>
                apply receive_of_get (hoffers _) hregarded rfl
                rw [hcontents]
                exact ⟨rfl, rfl⟩
            | cons c contents =>
                apply receive_of_get (hoffers _) hregarded
                · exact Object.vclock_setContent _ _
                · rw [hcontents]
                  exact Object.holds_setContent _ (List.cons_ne_nil c contents)

theorem delete_turns : Turn l (l.step peer .delete) := by
  simp only [step, Object.delete]
  by_cases hkey : l.object.key.isEmpty = true
  · rw [if_pos hkey]
    exact Turn.edit _ rfl rfl rfl
  · rw [if_neg hkey]
    simp only [Dialogue.query, Dialogue.run, Peer.answer]
    cases hreply : peer.reply l.journal (.delete l.object.deleteRequest) with
    | error e =>
        apply ask_of_error
        rintro c ⟨⟩
        rfl
    | ok reply =>
        apply Turn.ask
        · rintro c ⟨⟩
          rfl
        · rfl
        · rfl

theorem adoptSibling_turns (index : Nat) : Turn l (l.step peer (.adoptSibling index)) := by
  simp only [step, Object.adoptSibling]
  split
  · exact Turn.edit _ rfl rfl rfl
  · exact Turn.edit _ rfl rfl rfl

theorem resolve_turns (merger : Merger Unit) : Turn l (l.step peer (.resolve merger)) := by
  simp only [step, Object.resolve]
  by_cases hconflict : l.object.conflict = true
  · rw [if_pos hconflict]
    obtain ⟨value, hvalue⟩ :=
      merger.exists_adopt l.object.siblingCount { l.object with state := .resolving }
    cases hrun : merger.resolver l.object.siblingCount { l.object with state := .resolving } with
    | mk record rest =>
        obtain ⟨result, o⟩ := rest
        rw [hrun] at hvalue
        obtain rfl : o = _ := hvalue
        cases result with
        | error e => exact Turn.retain _ rfl (of_decide_eq_true hconflict) rfl rfl
        | ok u => exact Turn.settle _ rfl rfl rfl
  · rw [if_neg hconflict]
    exact Turn.edit _ rfl rfl rfl

theorem step_turns (a : Action) : Turn l (l.step peer a) := by
  cases a with
  | fetch options => exact l.fetch_turns peer options
  | store => exact l.store_turns peer
  | reload => exact l.reload_turns peer
  | delete => exact l.delete_turns peer
  | edit value => exact Turn.edit _ rfl rfl rfl
  | configure options => exact Turn.edit _ rfl rfl rfl
  | adoptSibling index => exact l.adoptSibling_turns peer index
  | resolve merger => exact l.resolve_turns peer merger

/-- What every turn keeps holds after every life. -/
theorem run_of_turns {P : Life → Prop} (hturn : ∀ a b, P a → Turn a b → P b) (h : P l)
    (actions : List Action) : P (l.run peer actions) := by
  induction actions generalizing l with
  | nil => exact h
  | cons a actions ih => exact ih (l.step peer a) (hturn _ _ h (l.step_turns peer a))

end Life
end ReplicaClient
