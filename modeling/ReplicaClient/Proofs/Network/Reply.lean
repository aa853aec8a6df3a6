import ReplicaClient.Proofs.Network.Stream

/-!
# Replies of a faithful peer

A peer is faithful if it answers a request with the frames of one reply and nothing else: one
frame, or for listings and MapReduce frames up to one that is marked as the last or tells of an
error.  The payloads may be malformed, the codes wrong, and the octets may stop anywhere.
Whoever reads such a reply and keeps the connection has read all of it.
-/

namespace ReplicaClient

open Wire

namespace Operation

/-- The messages of which a reply has several. -/
def pages? : Operation → Option MessageType
  | listBuckets => some .listBucketsReply
  | listKeys => some .listKeysReply
  | mapReduce => some .mapReduceReply
  | _ => none

/-- How the reply to an operation is read: page by page where it has pages, else as an
acknowledgement or as one message of a type. -/
def reading (op : Operation) (t : Option MessageType) : Reading :=
  match op.pages?, t with
  | some pages, _ => .pages pages
  | none, some t => .single t
  | none, none => .acknowledgement

/-- A reply to the operation goes no further than this frame. -/
def ends (op : Operation) (f : Frame) : Bool :=
  match op.pages? with
  | none => true
  | some pages =>
      f.code = MessageCode.error.toByte ||
        f.code = (MessageCode.reply op).toByte &&
          match Message.decode pages f.payload with
          | .error _ => false
          | .ok m => (Reading.pages pages).isLast m

theorem code_of_pages {op : Operation} {t : MessageType} (h : op.pages? = some t) :
    t.code? = some (.reply op) := by
  cases op <;> cases h <;> rfl

theorem isEmptyAck_of_pages {op : Operation} {t : MessageType} (h : op.pages? = some t) :
    (MessageCode.reply op).isEmptyAck = false := by
  cases op <;> cases h <;> rfl

end Operation

/-- Every request reads its reply as its operation calls for. -/
theorem Request.reading_eq (q : Request) : ∃ t, q.reading = q.operation.reading t := by
  cases q with
  | ping | setClientId _ | delete _ | setBucket _ _ _ | resetBucket _ _ => exact ⟨none, rfl⟩
  | listBuckets | listKeys _ _ | mapReduce _ _ => exact ⟨none, rfl⟩
  | _ => exact ⟨some _, rfl⟩

/-- The octets are the beginning of a reply to the operation, or all of one. -/
def IsReply (op : Operation) (bs : Bytes) : Prop :=
  ∃ fs : List Frame, bs <+: (fs.map Frame.octets).flatten ∧ (∀ f ∈ fs, f.Fits) ∧
    ∀ f ∈ fs.dropLast, op.ends f = false

/-- The peer answers every request on its connection with one reply, however much of it. -/
def Environment.Faithful (env : Environment) : Prop :=
  ∀ received number op payload,
    IsReply op (env.react (received ++ [(number, Frame.encode (.request op) payload)])).pieces.flatten

namespace IsReply

variable {op : Operation} {bs : Bytes}

theorem nil (op : Operation) : IsReply op [] :=
  ⟨[], List.nil_prefix, by simp, by simp⟩

/-- What is left of a reply after a frame; after the last frame nothing is left. -/
theorem drop (h : IsReply op bs) {f : Frame} {used : Nat}
    (hdecode : Frame.decode bs = .ok (some (f, used))) :
    IsReply op (bs.drop used) ∧ (op.ends f = true → bs.drop used = []) := by
  obtain ⟨fs, hprefix, hfits, hends⟩ := h
  cases fs with
  | nil =>
      obtain rfl : bs = [] := List.prefix_nil.mp hprefix
      cases hdecode
  | cons g rest =>
      rw [List.map_cons, List.flatten_cons] at hprefix
      have hg : g.Fits := hfits g List.mem_cons_self
      obtain ⟨rfl, hrest⟩ := Frame.decode_of_isPrefix hg hprefix hdecode
      cases rest with
      | nil =>
          have hnil : bs.drop used = [] := List.prefix_nil.mp hrest
          exact ⟨hnil ▸ nil op, fun _ ↦ hnil⟩
      | cons g' rest =>
          rw [List.dropLast_cons_cons] at hends
          have hgoes : op.ends f = false := hends f List.mem_cons_self
          refine ⟨⟨g' :: rest, hrest, ?_, ?_⟩, ?_⟩
          · intro x hx
            exact hfits x (List.mem_cons_of_mem f hx)
          · intro x hx
            exact hends x (List.mem_cons_of_mem f hx)
          · intro hlast
            rw [hgoes] at hlast
            cases hlast

end IsReply

/-! ## Interpreting a frame -/

theorem code_of_interpret_server {expected : MessageCode} {t : MessageType} {f : Frame}
    {e : ClientError} (h : interpret expected t f = .error e) (hserver : e.isServer = true) :
    f.code = MessageCode.error.toByte := by
  by_cases hcode : f.code = MessageCode.error.toByte
  · exact hcode
  · exfalso
    unfold interpret at h
    rw [if_neg hcode] at h
    split at h
    · cases h
      cases hserver
    · split at h
      · cases h
      · split at h
        · cases h
          cases hserver
        · cases h

/-- A frame ends the reply where its reader takes it for an error of the store. -/
theorem ends_of_interpret_server {op : Operation} {expected : MessageCode} {t : MessageType}
    {f : Frame} {e : ClientError} (h : interpret expected t f = .error e)
    (hserver : e.isServer = true) : op.ends f = true := by
  have hcode := code_of_interpret_server h hserver
  unfold Operation.ends
  cases op.pages? with
  | none => rfl
  | some pages => simp [hcode]

/-- A frame ends the reply where its reader takes it for the last message. -/
theorem ends_of_isLast {op : Operation} {t : Option MessageType} {f : Frame} {m : Message}
    (h : interpret ((op.reading t).expected (.request op)) (op.reading t).messageType f = .ok m)
    (hlast : (op.reading t).isLast m = true) : op.ends f = true := by
  unfold Operation.ends
  cases hpages : op.pages? with
  | none => rfl
  | some pages =>
      have hreading : op.reading t = .pages pages := by
        simp only [Operation.reading, hpages]
      simp only [hreading, Reading.expected, Reading.messageType, Operation.code_of_pages hpages,
        Option.getD_some] at h hlast
      unfold interpret at h
      split at h
      · split at h <;> cases h
      · rename_i herror
        split at h
        · cases h
        · rename_i hcode
          rw [Operation.isEmptyAck_of_pages hpages] at h
          simp only [Bool.false_eq_true, if_false] at h
          split at h
          · cases h
          · rename_i m' hdecode
            cases h
            simp [Decidable.not_not.mp hcode, hdecode, hlast]

/-! ## Reading a reply -/

def keeps {α : Type} : Except ClientError α → Bool
  | .ok _ => true
  | .error e => e.isServer

namespace Channel

/-- The frames that are interpreted when the rest of a reply is read. -/
def interpretedMore (reading : Reading) (expected : MessageCode) :
    (room : Nat) → Channel → List Frame
  | 0, _ => []
  | room + 1, ch =>
      match ch.receive with
      | (.ok (some frame), after) =>
          match interpret expected reading.messageType frame with
          | .error _ => [frame]
          | .ok m =>
              if reading.isLast m then [frame]
              else frame :: interpretedMore reading expected room after
      | _ => []

def interpreted (reading : Reading) (expected : MessageCode) (ch : Channel) : List Frame :=
  interpretedMore reading expected (ch.unread.length + 1) ch

variable {op : Operation} {t : Option MessageType} {ch : Channel}

/-- Whoever keeps a connection after a reply has read all of the reply. -/
theorem unread_receiveMore (h : IsReply op ch.unread) (room : Nat)
    (hkeeps : keeps (ch.receiveMore (op.reading t) ((op.reading t).expected (.request op)) room).1) :
    (ch.receiveMore (op.reading t) ((op.reading t).expected (.request op)) room).2.unread = [] := by
  induction room generalizing ch with
  | zero => cases hkeeps
  | succ room ih =>
      unfold receiveMore at hkeeps ⊢
      rcases ch.receive_cases with
        ⟨f, used, after, hdecode, hreceive, hunread⟩ | ⟨after, hreceive, -⟩ |
          ⟨e, after, hreceive, hserver⟩
      · obtain ⟨hrest, hsilent⟩ := h.drop hdecode
        rw [← hunread] at hrest hsilent
        simp only [hreceive] at hkeeps ⊢
        cases hinterpret : interpret ((op.reading t).expected (.request op))
            (op.reading t).messageType f with
        | error e =>
            simp only [hinterpret] at hkeeps ⊢
            exact hsilent (ends_of_interpret_server hinterpret hkeeps)
        | ok m =>
            simp only [hinterpret] at hkeeps ⊢
            by_cases hlast : (op.reading t).isLast m = true
            · rw [if_pos hlast] at hkeeps ⊢
              exact hsilent (ends_of_isLast hinterpret hlast)
            · rw [if_neg hlast] at hkeeps ⊢
              have hmore := ih hrest
              cases hresult : receiveMore (op.reading t)
                  ((op.reading t).expected (.request op)) room after with
              | mk result last =>
                  rw [hresult] at hmore hkeeps
                  cases result with
                  | error e => exact hmore hkeeps
                  | ok ms => exact hmore rfl
      · simp only [hreceive] at hkeeps
        cases hkeeps
      · simp only [hreceive] at hkeeps
        rw [keeps, hserver] at hkeeps
        cases hkeeps

/-- A reply is read to its end unless the stream has ended before it began. -/
theorem receiveReply_cases (reading : Reading) (expected : MessageCode) (ch : Channel) :
    (∃ after, ch.receiveReply reading expected = (.ok none, after) ∧ after.unread = []) ∨
    ch.receiveReply reading expected =
      ((ch.receiveMore reading expected (ch.unread.length + 1)).1.map some,
        (ch.receiveMore reading expected (ch.unread.length + 1)).2) := by
  unfold receiveReply
  rcases ch.receive_cases with
    ⟨f, used, after, -, hreceive, -⟩ | ⟨after, hreceive, hnil⟩ | ⟨e, after, hreceive, -⟩
  · right
    simp only [hreceive]
    rcases ch.receiveMore reading expected (ch.unread.length + 1) with ⟨e | ms, last⟩
    · rfl
    · rfl
  · left
    simp only [hreceive]
    exact ⟨after, rfl, hnil⟩
  · right
    simp only [hreceive]
    rcases ch.receiveMore reading expected (ch.unread.length + 1) with ⟨e | ms, last⟩
    · rfl
    · rfl

theorem unread_receiveReply (h : IsReply op ch.unread)
    (hkeeps : keeps (ch.receiveReply (op.reading t) ((op.reading t).expected (.request op))).1) :
    (ch.receiveReply (op.reading t) ((op.reading t).expected (.request op))).2.unread = [] := by
  rcases ch.receiveReply_cases (op.reading t) ((op.reading t).expected (.request op)) with
    ⟨after, heq, hnil⟩ | heq
  · rw [heq]
    exact hnil
  · rw [heq] at hkeeps ⊢
    apply unread_receiveMore h
    cases hresult : (ch.receiveMore (op.reading t) ((op.reading t).expected (.request op))
        (ch.unread.length + 1)).1 with
    | error e =>
        rw [hresult] at hkeeps
        exact hkeeps
    | ok ms => rfl

/-- The interpreted frames are the first octets that were unread. -/
theorem interpretedMore_isPrefix (reading : Reading) (expected : MessageCode) (room : Nat)
    (ch : Channel) :
    ((interpretedMore reading expected room ch).map Frame.octets).flatten <+: ch.unread := by
  induction room generalizing ch with
  | zero => exact List.nil_prefix
  | succ room ih =>
      unfold interpretedMore
      rcases ch.receive_cases with
        ⟨f, used, after, hdecode, hreceive, hunread⟩ | ⟨after, hreceive, -⟩ | ⟨e, after, hreceive, -⟩
      · have hsplit : f.octets ++ after.unread = ch.unread := by
          rw [hunread]
          exact Frame.octets_append_drop hdecode
        have hone : f.octets <+: ch.unread := ⟨_, hsplit⟩
        simp only [hreceive]
        split
        · simpa using hone
        · split
          · simpa using hone
          · rw [List.map_cons, List.flatten_cons, ← hsplit]
            exact (List.prefix_append_right_inj _).mpr (ih after)
      · simp only [hreceive]
        exact List.nil_prefix
      · simp only [hreceive]
        exact List.nil_prefix

theorem interpreted_isPrefix (reading : Reading) (expected : MessageCode) (ch : Channel) :
    ((interpreted reading expected ch).map Frame.octets).flatten <+: ch.unread :=
  interpretedMore_isPrefix reading expected _ ch

/-- The messages of a reply are what the interpreted frames say. -/
theorem interpret_interpretedMore {reading : Reading} {expected : MessageCode} {room : Nat}
    {ch after : Channel} {ms : List Message}
    (h : ch.receiveMore reading expected room = (.ok ms, after)) :
    (interpretedMore reading expected room ch).map (interpret expected reading.messageType) =
      ms.map .ok := by
  induction room generalizing ch ms with
  | zero => cases h
  | succ room ih =>
      unfold receiveMore at h
      unfold interpretedMore
      rcases ch.receive_cases with
        ⟨f, used, next, hdecode, hreceive, -⟩ | ⟨next, hreceive, -⟩ | ⟨e, next, hreceive, -⟩
      · simp only [hreceive] at h ⊢
        cases hinterpret : interpret expected reading.messageType f with
        | error e =>
            simp only [hinterpret] at h
            cases h
        | ok m =>
            simp only [hinterpret] at h ⊢
            by_cases hlast : reading.isLast m = true
            · rw [if_pos hlast] at h ⊢
              cases h
              simp [hinterpret]
            · rw [if_neg hlast] at h ⊢
              cases hmore : receiveMore reading expected room next with
              | mk result last =>
                  rw [hmore] at h
                  cases result with
                  | error e => cases h
                  | ok ms' =>
                      cases h
                      simp [hinterpret, ih hmore]
      · simp only [hreceive] at h
        cases h
      · simp only [hreceive] at h
        cases h

theorem interpret_interpreted {reading : Reading} {expected : MessageCode} {ch after : Channel}
    {ms : List Message} (h : ch.receiveReply reading expected = (.ok (some ms), after)) :
    (ch.interpreted reading expected).map (interpret expected reading.messageType) =
      ms.map .ok := by
  rcases ch.receiveReply_cases reading expected with ⟨last, heq, -⟩ | heq
  · rw [heq] at h
    cases h
  · rw [heq] at h
    cases hresult : ch.receiveMore reading expected (ch.unread.length + 1) with
    | mk result last =>
        rw [hresult] at h
        cases result with
        | error e => cases h
        | ok ms' =>
            cases h
            exact interpret_interpretedMore hresult

end Channel
end ReplicaClient
