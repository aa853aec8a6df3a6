import Mathlib.Logic.Relation
import ReplicaClient.Model
import ReplicaClient.Proofs.Object.Clock

/-!
# Where a clock comes from

A clock orders the versions of one place, which is a bucket with its type and a key.  Objects and
models take their clocks over from replies, and every write, reload and deletion sends the clock
along with the place that the object then has.  Nothing but a new name can part the two: a model
that is given another key keeps its clock.
-/

namespace ReplicaClient

/-! ## Places -/

/-- Where a value is kept, by the bytes that a request has for it. -/
structure Place where
  bucket : Bytes
  bucketType : Option Bytes
  key : Bytes
  deriving DecidableEq, Repr

namespace Place

/-- The place of an object that has heard of this one and was then given a key, or was not.  A key
that the store has chosen need not be text. -/
def named (p : Place) (given : Option String) : Place :=
  { p with key := Utf8.encode (given.getD (Utf8.decodeLossy p.key)) }

theorem named_eq_iff (p : Place) (given : Option String) :
    p.named given = p ↔ ∃ key, p.key = Utf8.encode key ∧ ∀ k, given = some k → k = key := by
  have hkey : p.named given = p ↔ Utf8.encode (given.getD (Utf8.decodeLossy p.key)) = p.key :=
    ⟨congrArg Place.key, fun h ↦ by rw [named, h]⟩
  rw [hkey]
  constructor
  · intro h
    refine ⟨_, h.symm, ?_⟩
    rintro k rfl
    rfl
  · rintro ⟨key, hp, hgiven⟩
    cases given with
    | none => rw [Option.getD_none, hp, Utf8.decodeLossy_encode]
    | some k => rw [Option.getD_some, hgiven k rfl, hp]

end Place

def Request.place? : Request → Option Place
  | .get q => some ⟨q.bucket, q.bucketType, q.key⟩
  | .put q => some ⟨q.bucket, q.bucketType, q.key.getD []⟩
  | .delete q => some ⟨q.bucket, q.bucketType, q.key⟩
  | _ => none

/-- The place that a reply is about.  A write without a key is told which key it was given. -/
def Entry.about? (e : Entry) : Option Place :=
  e.request.place?.map fun p ↦
    if p.key = [] then { p with key := (e.putReply?.bind PutReply.key).getD [] } else p

namespace Object

def place (o : Object) : Place :=
  ⟨Utf8.encode o.bucket, textBytes o.bucketType, Utf8.encode o.key⟩

/-- What a request of an object tells about it, apart from the value. -/
def mark (o : Object) : Place × Bytes :=
  (o.place, o.vclock)

theorem bucket_of_mark_eq {o o' : Object} (h : o'.mark = o.mark) : o'.bucket = o.bucket :=
  Utf8.encode_injective (congrArg (fun mark ↦ mark.1.bucket) h)

theorem key_of_mark_eq {o o' : Object} (h : o'.mark = o.mark) : o'.key = o.key :=
  Utf8.encode_injective (congrArg (fun mark ↦ mark.1.key) h)

variable (o : Object)

theorem place_named : o.place.named none = o.place :=
  (Place.named_eq_iff _ _).mpr ⟨o.key, rfl, nofun⟩

theorem place?_putRequest : (Request.put o.putRequest).place? = some o.place := by
  have hkey : (nonEmpty (Utf8.encode o.key)).getD [] = Utf8.encode o.key := by
    cases Utf8.encode o.key <;> rfl
  rw [Request.place?, putRequest, hkey]
  rfl

end Object

namespace Entry

theorem about?_get (call : Call) (q : GetRequest) (reply : GetReply) :
    (⟨call, .get q, .ok reply⟩ : Entry).about? = (Request.get q).place? := by
  rw [about?, Request.place?, Option.map_some]
  dsimp only
  split
  · rename_i hkey
    rw [hkey]
    rfl
  · rfl

theorem about?_put (o : Object) (call : Call) (reply : PutReply) :
    (⟨call, .put o.putRequest, .ok reply⟩ : Entry).about? =
      some (if o.key = "" then { o.place with key := reply.key.getD [] } else o.place) := by
  have hempty : o.place.key = [] ↔ o.key = "" :=
    ⟨fun h ↦ by_contra fun hne ↦ Utf8.encode_ne_nil hne h, fun h ↦ by rw [Object.place, h]; rfl⟩
  rw [about?, o.place?_putRequest, Option.map_some]
  simp only [hempty]
  rfl

end Entry

namespace Object

variable (o : Object)

/-- A write knows its place afterwards, which is the one that the reply is about. -/
theorem place_afterPut (reply : PutReply) :
    (o.afterPut reply).place =
      (if o.key = "" then { o.place with key := reply.key.getD [] } else o.place).named none := by
  by_cases hkey : o.key = ""
  · have hempty : o.key.isEmpty = true := String.isEmpty_iff.mpr hkey
    have hafter : (o.afterPut reply).place =
        { o.place with key := Utf8.encode ((reply.key.map Utf8.decodeLossy).getD o.key) } := by
      rw [afterPut]
      dsimp only
      rw [if_pos hempty]
      split <;> rfl
    rw [if_pos hkey, hafter, hkey]
    cases reply.key <;> rfl
  · rw [if_neg hkey, place_named]
    obtain ⟨vclock, vtag, lastMod, lastModUsecs, hafter⟩ := afterPut_eq hkey reply
    rw [hafter]
    rfl

/-! ### What does not touch the mark -/

theorem mark_setContent (contents : List Content) : (o.setContent contents).mark = o.mark := by
  unfold setContent
  split <;> rfl

/-- What a fetch makes of a reply, be it a tombstone, has the clock of this reply. -/
theorem mark_afterFetch {o o' : Object} {reply : GetReply}
    (h : o.afterFetch reply = .ok o' ∨ o.afterFetch reply = .error (.notFound o')) :
    o'.mark = (o.place, reply.vclock.getD []) := by
  rw [afterFetch] at h
  cases hcontents : reply.contents with
  | nil =>
      rw [hcontents] at h
      rcases h with h | h
      · cases h
      · cases h
        rfl
  | cons c contents =>
      rw [hcontents] at h
      rcases h with h | h
      · cases h
        exact mark_setContent _ _
      · cases h

theorem mark_afterReload {reply : GetReply} (h : reply.unchanged.getD false = false) :
    (o.afterReload reply).2.mark = (o.place, reply.vclock.getD []) := by
  rw [afterReload, h]
  cases reply.contents with
  | nil => rfl
  | cons c contents => exact mark_setContent _ _

theorem mark_addLink (link : Link) : (o.addLink link).2.mark = o.mark := by
  rw [addLink]
  split <;> rfl

/-- A resolver that leaves the mark alone can be left to it. -/
theorem mark_resolve {ρ : Type} {resolver : Resolver ρ}
    (h : ∀ count o, (resolver count o).2.2.mark = o.mark) :
    (o.resolve resolver).2.2.mark = o.mark := by
  have hrun := h o.siblingCount { o with state := .resolving }
  rw [resolve]
  split
  · split
    · rename_i heq
      rw [heq] at hrun
      exact hrun
    · rename_i heq
      rw [heq] at hrun
      exact hrun
  · rfl

end Object

namespace Model

theorem mark_withDocument (o : Object) (tags : List String) (body : Bytes) (links : List Link) :
    (withDocument o tags body links).mark = o.mark := by
  have hlinks (o' : Object) :
      (links.foldl (fun o link ↦ (o.addLink link).2) o').mark = o'.mark := by
    induction links generalizing o' with
    | nil => rfl
    | cons link links ih =>
        rw [List.foldl_cons, ih]
        exact o'.mark_addLink link
  exact hlinks { o with links := o.links.filter (·.tag ∉ tags) }

/-- A model that is made of an object, by its document or by the rule of its type, has the object's
mark. -/
theorem mark_ofObject {D : Type} [Mergeable D] {o : Object} {m : Model D}
    (h : ofObject o = .ok m) : m.object.mark = o.mark := by
  have hresolver (count : Nat) (o : Object) : (documentResolver D count o).2.2.mark = o.mark := by
    rw [documentResolver]
    split <;> rfl
  have hresolved := o.mark_resolve hresolver
  rw [ofObject] at h
  split at h
  · split at h
    · rename_i heq
      cases h
      rw [heq] at hresolved
      exact hresolved
    · cases h
    · rename_i heq
      cases h
      rw [heq] at hresolved
      exact hresolved
  · cases hdoc : Document.decode D o.data o.links with
    | error e =>
        rw [hdoc] at h
        cases h
    | ok doc =>
        rw [hdoc] at h
        cases h
        rfl

end Model

/-! ## Holdings -/

/-- What happens to an object: its requests are answered or not, and it is given a key. -/
inductive Holding.Event where
  | exchange (e : Entry)
  | naming (key : String)

abbrev Holding.History := List Holding.Event

/-- An object at hand, alone or in a model, and what has happened to it. -/
structure Holding where
  object : Object
  history : Holding.History := []

namespace Holding

namespace Event

def name? : Event → Option String
  | exchange _ => none
  | naming key => some key

end Event

namespace History

/-- The key that was given last. -/
def given (h : History) : Option String :=
  (h.filterMap Event.name?).getLast?

/-- The last reply that brought a clock, and what has happened since. -/
structure Heard (h : History) (e : Entry) (since : History) : Prop where
  split : ∃ before, h = before ++ .exchange e :: since
  silent : ∀ e', .exchange e' ∈ since → e'.clockHeard? = none

/-- The clock was brought by the last reply, and the place is that of this reply, by the name it was
given since if there is one. -/
def Ascribes (h : History) (clock : Bytes) (place : Place) : Prop :=
  ∃ e since p, h.Heard e since ∧ e.clockHeard? = some clock ∧ e.about? = some p ∧
    place = p.named since.given

variable {h : History} {clock : Bytes} {place : Place}

theorem given_exchange (h : History) (e : Entry) : given (h ++ [.exchange e]) = h.given := by
  rw [given, List.filterMap_append, given]
  exact congrArg _ (List.append_nil _)

theorem given_naming (h : History) (key : String) : given (h ++ [.naming key]) = some key := by
  rw [given, List.filterMap_append]
  exact List.getLast?_concat

theorem Heard.mem {e : Entry} {since : History} (hheard : h.Heard e since) : .exchange e ∈ h := by
  obtain ⟨before, rfl⟩ := hheard.split
  exact List.mem_append_right _ List.mem_cons_self

theorem Heard.concat {e : Entry} {since : History} (hheard : h.Heard e since) {event : Event}
    (hsilent : ∀ e', event = .exchange e' → e'.clockHeard? = none) :
    Heard (h ++ [event]) e (since ++ [event]) where
  split := by
    obtain ⟨before, rfl⟩ := hheard.split
    exact ⟨before, by rw [List.append_assoc, List.cons_append]⟩
  silent e' he' := by
    rcases List.mem_append.mp he' with hbefore | hlast
    · exact hheard.silent e' hbefore
    · exact hsilent e' (List.mem_singleton.mp hlast).symm

theorem Ascribes.exchange (hclock : h.Ascribes clock place) {e : Entry}
    (he : e.clockHeard? = none) : Ascribes (h ++ [.exchange e]) clock place := by
  obtain ⟨e', since, p, hheard, hc, habout, rfl⟩ := hclock
  refine ⟨e', since ++ [.exchange e], p, hheard.concat ?_, hc, habout, ?_⟩
  · rintro _ ⟨⟩
    exact he
  · rw [given_exchange]

theorem Ascribes.naming (hclock : h.Ascribes clock place) (key : String) :
    Ascribes (h ++ [.naming key]) clock { place with key := Utf8.encode key } := by
  obtain ⟨e', since, p, hheard, hc, habout, rfl⟩ := hclock
  refine ⟨e', since ++ [.naming key], p, hheard.concat ?_, hc, habout, ?_⟩
  · rintro _ ⟨⟩
  · rw [given_naming]
    rfl

theorem ascribes_of_heard (h : History) {e : Entry} {p : Place}
    (hheard : e.clockHeard? = some clock) (habout : e.about? = some p) :
    Ascribes (h ++ [.exchange e]) clock (p.named none) :=
  ⟨e, [], p, ⟨⟨h, rfl⟩, fun _ he' ↦ absurd he' List.not_mem_nil⟩, hheard, habout, rfl⟩

end History

/-! ### Turns -/

/-- What can become of an object and its history. -/
inductive Turn (hd : Holding) : Holding → Prop where
  /-- Neither the place nor the clock has changed. -/
  | edit (o : Object) (hmark : o.mark = hd.object.mark) : Turn hd ⟨o, hd.history⟩
  | name (key : String) :
      Turn hd ⟨{ hd.object with key }, hd.history ++ [.naming key]⟩
  /-- A request has brought nothing for the object. -/
  | ask (e : Entry) (hplace : e.request.place? = some hd.object.place)
      (hoffers : e.Offers hd.object.vclock) (hheard : e.clockHeard? = none) :
      Turn hd ⟨hd.object, hd.history ++ [.exchange e]⟩
  /-- A reply has brought a clock. -/
  | hear (e : Entry) (o : Object) (p : Place) (hplace : e.request.place? = some hd.object.place)
      (hoffers : e.Offers hd.object.vclock) (hheard : e.clockHeard? = some o.vclock)
      (habout : e.about? = some p) (hnamed : o.place = p.named none) :
      Turn hd ⟨o, hd.history ++ [.exchange e]⟩

abbrev Turns : Holding → Holding → Prop :=
  Relation.ReflTransGen Turn

/-- The clock of an object is ascribed to its place, and so was every clock that was sent. -/
structure Traced (hd : Holding) : Prop where
  held : hd.object.vclock ≠ [] → hd.history.Ascribes hd.object.vclock hd.object.place
  sent : ∀ (past : History) e rest c, hd.history = past ++ .exchange e :: rest →
    e.clockSent? = some (some c) →
    ∃ place, e.request.place? = some place ∧ past.Ascribes c place

namespace Traced

variable {hd hd' : Holding}

theorem of_blank {o : Object} (h : o.vclock = []) : Traced ⟨o, []⟩ where
  held hne := absurd h hne
  sent past e rest c hsplit := by
    cases past <;> cases hsplit

/-- The next request sends the clock that the object has, to the place that the object has. -/
theorem sent_exchange (h : hd.Traced) {e : Entry} (hplace : e.request.place? = some hd.object.place)
    (hoffers : e.Offers hd.object.vclock) (past : History) (e' : Entry) (rest : History) (c : Bytes)
    (hsplit : hd.history ++ [.exchange e] = past ++ .exchange e' :: rest)
    (hsent : e'.clockSent? = some (some c)) :
    ∃ place, e'.request.place? = some place ∧ past.Ascribes c place := by
  rcases Journal.split_concat hsplit with ⟨rfl, heq⟩ | ⟨rest', hbefore⟩
  · cases heq
    have hoffered : nonEmpty hd.object.vclock = some c := (hoffers _ hsent).symm
    have hne : hd.object.vclock ≠ [] := by
      intro hnil
      rw [hnil] at hoffered
      cases hoffered
    rw [nonEmpty_of_ne hne] at hoffered
    obtain rfl : hd.object.vclock = c := Option.some.inj hoffered
    exact ⟨_, hplace, h.held hne⟩
  · exact h.sent past e' rest' c hbefore hsent

theorem turn (h : hd.Traced) (hturn : Turn hd hd') : hd'.Traced := by
  cases hturn with
  | edit o hmark =>
      have hplace : o.place = hd.object.place := congrArg Prod.fst hmark
      have hclock : o.vclock = hd.object.vclock := congrArg Prod.snd hmark
      refine ⟨?_, h.sent⟩
      dsimp only
      rw [hplace, hclock]
      exact h.held
  | name key =>
      -- The clock is kept, so from now on the history ascribes it to a place of another name.
      refine ⟨fun hne ↦ (h.held hne).naming key, fun past e rest c hsplit ↦ ?_⟩
      rcases Journal.split_concat hsplit with ⟨-, heq⟩ | ⟨rest', hbefore⟩
      · cases heq
      · exact h.sent past e rest' c hbefore
  | ask e hplace hoffers hheard =>
      exact ⟨fun hne ↦ (h.held hne).exchange hheard, h.sent_exchange hplace hoffers⟩
  | hear e o p hplace hoffers hheard habout hnamed =>
      refine ⟨fun _ ↦ ?_, h.sent_exchange hplace hoffers⟩
      dsimp only
      rw [hnamed]
      exact History.ascribes_of_heard _ hheard habout

theorem turns (h : hd.Traced) (hturns : Turns hd hd') : hd'.Traced := by
  induction hturns with
  | refl => exact h
  | tail _ hturn ih => exact ih.turn hturn

end Traced
end Holding
end ReplicaClient
