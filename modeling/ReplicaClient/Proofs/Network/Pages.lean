import ReplicaClient.Proofs.Frame.Sequence
import ReplicaClient.Proofs.Network.Reply
import ReplicaClient.Proofs.Wire.Concatenation

/-!
# Replies in pages

A reply in pages begins with any number of pages that are not marked as the last.  What follows
them decides the outcome: a page that is marked completes the reply, and nothing beyond it is read;
whatever else comes is an error, and then there is no reply at all.  There is no third case, so the
reader succeeds on the replies that are complete and on no others.
-/

namespace ReplicaClient

open Wire

/-- The code under which messages of the type arrive as pages. -/
def Wire.MessageType.pageCode (t : MessageType) : MessageCode :=
  t.code?.getD .error

/-- The message of a page, field by field: the entries that it carries, in order, and whether it is
marked as the last.  A part of a result carries its response, if it has one. -/
inductive Wire.MessageType.Carries : MessageType → Message → List Bytes → Bool → Prop where
  | buckets (entries : List Bytes) (mark : Option Bool) :
      Carries .listBucketsReply [entries.map .bytes, mark.toList.map .flag] entries
        (mark.getD false)
  | keys (entries : List Bytes) (mark : Option Bool) :
      Carries .listKeysReply [entries.map .bytes, mark.toList.map .flag] entries (mark.getD false)
  | part (phase : Option UInt32) (response : Option Bytes) (mark : Option Bool) :
      Carries .mapReduceReply
        [phase.toList.map .word, response.toList.map .bytes, mark.toList.map .flag]
        response.toList (mark.getD false)

/-- A frame with the code of the pages whose payload is a message of their type, and what that
carries. -/
structure Page (t : MessageType) where
  payload : Bytes
  message : Message
  entries : List Bytes
  done : Bool
  fits : payload.length ≤ Frame.maxPayload
  decodes : Message.decode t payload = .ok message
  carries : t.Carries message entries done

namespace Page

variable {t : MessageType}

def frame (p : Page t) : Frame :=
  ⟨t.pageCode.toByte, p.payload⟩

def stream (pages : List (Page t)) : Bytes :=
  Frame.stream (pages.map frame)

@[simp] theorem stream_cons (p : Page t) (pages : List (Page t)) :
    stream (p :: pages) = p.frame.octets ++ stream pages :=
  rfl

theorem stream_append (pages pages' : List (Page t)) :
    stream (pages ++ pages') = stream pages ++ stream pages' := by
  rw [stream, List.map_append, Frame.stream_append]
  rfl

theorem length_le_length_stream (pages : List (Page t)) : pages.length ≤ (stream pages).length := by
  induction pages with
  | nil => exact Nat.le_refl 0
  | cons p pages ih =>
      have hpos := p.frame.size_pos
      rw [stream_cons, List.length_append, Frame.length_octets, List.length_cons]
      omega

end Page

/-- The octets are a complete reply and what follows it. -/
structure Completes {t : MessageType} (pages : List (Page t)) (last : Page t) (rest bs : Bytes) :
    Prop where
  eq_append : bs = Page.stream (pages ++ [last]) ++ rest
  goes_on : ∀ p ∈ pages, p.done = false
  done : last.done = true

/-- What may come in place of a page, and the error it is for the reader: an error frame, well
formed or not, a frame with another code or with a payload that is no page, a header with a bad
length, or octets in which the stream ends, stops or breaks. -/
inductive Interrupts (t : MessageType) : Ending → Bytes → ClientError → Prop where
  | refused {ending : Ending} {f : Frame} {text : Bytes} {code : UInt32}
      (hfits : f.payload.length ≤ Frame.maxPayload) (hcode : f.code = MessageCode.error.toByte)
      (hdecode : Message.decode .error f.payload = .ok [[.bytes text], [.word code]])
      (rest : Bytes) :
      Interrupts t ending (f.octets ++ rest) (.server (Utf8.decodeLossy text) code)
  | garbled {ending : Ending} {f : Frame} {e : DecodeError}
      (hfits : f.payload.length ≤ Frame.maxPayload) (hcode : f.code = MessageCode.error.toByte)
      (hdecode : Message.decode .error f.payload = .error e) (rest : Bytes) :
      Interrupts t ending (f.octets ++ rest) (.decode e)
  | foreign {ending : Ending} {f : Frame} (hfits : f.payload.length ≤ Frame.maxPayload)
      (herror : f.code ≠ MessageCode.error.toByte) (hcode : f.code ≠ t.pageCode.toByte)
      (rest : Bytes) :
      Interrupts t ending (f.octets ++ rest) (.unexpectedResponse t.pageCode f.code)
  | undecodable {ending : Ending} {f : Frame} {e : DecodeError}
      (hfits : f.payload.length ≤ Frame.maxPayload) (hcode : f.code = t.pageCode.toByte)
      (hdecode : Message.decode t f.payload = .error e) (rest : Bytes) :
      Interrupts t ending (f.octets ++ rest) (.decode e)
  | badLength {ending : Ending} {bs : Bytes} {e : FrameError} (hdecode : Frame.decode bs = .error e)
      (hlength : e = .empty ∨ ∃ size, e = .tooLarge size) : Interrupts t ending bs (.frame e)
  | ended : Interrupts t .closed [] .connectionClosed
  | cutHeader {bs : Bytes} (hne : bs ≠ []) (hlt : bs.length < Frame.headerLength) :
      Interrupts t .closed bs (.shortResponse bs.length)
  | cutPayload {bs : Bytes} (hdecode : Frame.decode bs = .ok none) :
      Interrupts t .closed bs .connectionClosed
  | stalled {bs : Bytes} (h : bs.length < Frame.headerLength ∨ Frame.decode bs = .ok none) :
      Interrupts t .stillOpen bs (.io .wouldBlock)
  | broken {bs : Bytes} (fault : IoFault)
      (h : bs.length < Frame.headerLength ∨ Frame.decode bs = .ok none) :
      Interrupts t (.broken fault) bs (.io fault)

/-- The octets are the beginning of a reply and something in place of its next page. -/
structure BreaksAfter {t : MessageType} (pages : List (Page t)) (ending : Ending) (bs : Bytes)
    (e : ClientError) : Prop where
  goes_on : ∀ p ∈ pages, p.done = false
  interrupts : ∃ rest, bs = Page.stream pages ++ rest ∧ Interrupts t ending rest e

/-! ## What pages carry -/

/-- The pages of a listing hold entries and a mark. -/
def Wire.MessageType.IsListing (t : MessageType) : Prop :=
  t = .listKeysReply ∨ t = .listBucketsReply

namespace Wire.MessageType

variable {op : Operation} {t : MessageType} {m : Message}

/-- A page of any kind carries something, marked or not. -/
theorem exists_carries (hop : op.pages? = some t) (h : m.Conforms t) :
    ∃ entries done, t.Carries m entries done := by
  have hlisting {name : String} (ht : t.fields =
      [⟨.repeated, 1, name, .bytes⟩, ⟨.optional, 2, "done", .flag⟩]) :
      ∃ (entries : List Bytes) (mark : Option Bool),
        m = [entries.map .bytes, mark.toList.map .flag] := by
    obtain ⟨slot, slot', rfl, hentries, hmark⟩ := h.exists_slots ht
    obtain ⟨entries, rfl⟩ := hentries.exists_map fun v hv ↦ hv.exists_bytes
    obtain ⟨mark, rfl⟩ := hmark.exists_toList rfl fun v hv ↦ hv.exists_flag
    exact ⟨entries, mark, rfl⟩
  cases op with
  | listBuckets =>
      cases hop
      obtain ⟨entries, mark, rfl⟩ := hlisting rfl
      exact ⟨_, _, .buckets entries mark⟩
  | listKeys =>
      cases hop
      obtain ⟨entries, mark, rfl⟩ := hlisting rfl
      exact ⟨_, _, .keys entries mark⟩
  | mapReduce =>
      cases hop
      obtain ⟨hlength, hslots⟩ := Message.conforms_iff.mp h
      match m, hlength with
      | [slot, slot', slot''], _ =>
          obtain ⟨phase, rfl⟩ := (hslots 0 _ rfl).exists_toList rfl fun v hv ↦ hv.exists_word
          obtain ⟨response, rfl⟩ := (hslots 1 _ rfl).exists_toList rfl fun v hv ↦ hv.exists_bytes
          obtain ⟨mark, rfl⟩ := (hslots 2 _ rfl).exists_toList rfl fun v hv ↦ hv.exists_flag
          exact ⟨_, _, .part phase response mark⟩
  | _ => cases hop

end Wire.MessageType

/-- An error frame that is well formed has a text and a code. -/
theorem exists_text_code {payload : Bytes} {m : Message}
    (h : Message.decode .error payload = .ok m) : ∃ text code, m = [[.bytes text], [.word code]] := by
  obtain ⟨slot, slot', rfl, htext, hcode⟩ := (Message.conforms_of_decode h).exists_slots rfl
  obtain ⟨text, rfl⟩ := htext.exists_singleton rfl fun v hv ↦ hv.exists_bytes
  obtain ⟨code, rfl⟩ := hcode.exists_singleton rfl fun v hv ↦ hv.exists_word
  exact ⟨text, code, rfl⟩

/-! ## Every stream is one or the other -/

theorem Completes.cons {t : MessageType} {pages : List (Page t)} {last : Page t} {rest bs : Bytes}
    (h : Completes pages last rest bs) {p : Page t} (hp : p.done = false) :
    Completes (p :: pages) last rest (p.frame.octets ++ bs) where
  eq_append := by
    rw [h.eq_append, List.cons_append, Page.stream_cons, List.append_assoc]
  goes_on q hq := by
    rcases List.mem_cons.mp hq with rfl | hq
    · exact hp
    · exact h.goes_on q hq
  done := h.done

theorem BreaksAfter.cons {t : MessageType} {pages : List (Page t)} {ending : Ending} {bs : Bytes}
    {e : ClientError} (h : BreaksAfter pages ending bs e) {p : Page t} (hp : p.done = false) :
    BreaksAfter (p :: pages) ending (p.frame.octets ++ bs) e where
  goes_on q hq := by
    rcases List.mem_cons.mp hq with rfl | hq
    · exact hp
    · exact h.goes_on q hq
  interrupts := by
    obtain ⟨rest, rfl, hinterrupts⟩ := h.interrupts
    exact ⟨rest, by rw [Page.stream_cons, List.append_assoc], hinterrupts⟩

/-- In octets with no frame in front, no page comes. -/
theorem exists_interrupts (t : MessageType) (ending : Ending) {bs : Bytes}
    (h : ∀ found, Frame.decode bs ≠ .ok (some found)) : ∃ e, Interrupts t ending bs e := by
  cases hdecode : Frame.decode bs with
  | ok found =>
      cases found with
      | some found => exact absurd hdecode (h found)
      | none =>
          cases ending with
          | closed => exact ⟨_, .cutPayload hdecode⟩
          | stillOpen => exact ⟨_, .stalled (.inr hdecode)⟩
          | broken fault => exact ⟨_, .broken fault (.inr hdecode)⟩
  | error e =>
      rcases Frame.decode_error_cases hdecode with ⟨rfl, hlt⟩ | hlength
      · cases ending with
        | stillOpen => exact ⟨_, .stalled (.inl hlt)⟩
        | broken fault => exact ⟨_, .broken fault (.inl hlt)⟩
        | closed =>
            by_cases hnil : bs = []
            · subst hnil
              exact ⟨_, .ended⟩
            · exact ⟨_, .cutHeader hnil hlt⟩
      · exact ⟨_, .badLength hdecode hlength⟩

section Frames

variable {op : Operation} {t : MessageType}

/-- A frame is a page or comes in place of one. -/
theorem exists_page_or_interrupts (hop : op.pages? = some t) (ending : Ending) {f : Frame}
    (hfits : f.payload.length ≤ Frame.maxPayload) (rest : Bytes) :
    (∃ p : Page t, p.frame = f) ∨ ∃ e, Interrupts t ending (f.octets ++ rest) e := by
  by_cases herror : f.code = MessageCode.error.toByte
  · right
    cases hpayload : Message.decode .error f.payload with
    | error e => exact ⟨_, .garbled hfits herror hpayload rest⟩
    | ok m =>
        obtain ⟨text, code, rfl⟩ := exists_text_code hpayload
        exact ⟨_, .refused hfits herror hpayload rest⟩
  · by_cases hcode : f.code = t.pageCode.toByte
    · cases hpayload : Message.decode t f.payload with
      | error e => exact Or.inr ⟨_, .undecodable hfits hcode hpayload rest⟩
      | ok m =>
          obtain ⟨entries, done, hcarries⟩ :=
            MessageType.exists_carries hop (Message.conforms_of_decode hpayload)
          let p : Page t := ⟨f.payload, m, entries, done, hfits, hpayload, hcarries⟩
          exact Or.inl ⟨p, by rw [Page.frame, ← hcode]⟩
    · exact Or.inr ⟨_, .foreign hfits herror hcode rest⟩

/-- A reply is complete or breaks off after some of its pages. -/
theorem completes_or_breaksAfter (hop : op.pages? = some t) (ending : Ending) (bs : Bytes) :
    (∃ (pages : List (Page t)) (last : Page t) (rest : Bytes), Completes pages last rest bs) ∨
      ∃ (pages : List (Page t)) (e : ClientError), BreaksAfter pages ending bs e := by
  induction hlength : bs.length using Nat.strongRecOn generalizing bs with
  | ind n ih =>
      subst hlength
      have hbreaks (h : ∃ e, Interrupts t ending bs e) :
          ∃ (pages : List (Page t)) (e : ClientError), BreaksAfter pages ending bs e := by
        obtain ⟨e, hinterrupts⟩ := h
        exact ⟨[], e, fun _ hp ↦ absurd hp List.not_mem_nil, bs, rfl, hinterrupts⟩
      by_cases hframe : ∃ found, Frame.decode bs = .ok (some found)
      · obtain ⟨⟨f, used⟩, hdecode⟩ := hframe
        have hfits := Frame.length_le_of_decode hdecode
        have hsplit := Frame.octets_append_drop hdecode
        generalize bs.drop used = rest at hsplit
        subst hsplit
        rcases exists_page_or_interrupts hop ending hfits rest with ⟨p, rfl⟩ | hinterrupts
        · cases hdone : p.done with
          | true =>
              left
              refine ⟨[], p, rest, ?_, fun _ hp ↦ absurd hp List.not_mem_nil, hdone⟩
              rw [List.nil_append, Page.stream_cons]
              exact congrArg (· ++ rest) (List.append_nil _).symm
          | false =>
              have hshorter : rest.length < (p.frame.octets ++ rest).length := by
                have hpos := p.frame.size_pos
                rw [List.length_append, Frame.length_octets]
                omega
              rcases ih rest.length hshorter rest rfl with
                ⟨pages, last, rest', hcompletes⟩ | ⟨pages, e, hbreaks⟩
              · exact Or.inl ⟨p :: pages, last, rest', hcompletes.cons hdone⟩
              · exact Or.inr ⟨p :: pages, e, hbreaks.cons hdone⟩
        · exact Or.inr (hbreaks hinterrupts)
      · exact Or.inr (hbreaks (exists_interrupts t ending (not_exists.mp hframe)))

end Frames

/-! ## What the reader makes of a frame -/

section Interpreting

variable {op : Operation} {t : MessageType}

theorem pageCode_of_pages (hop : op.pages? = some t) : t.pageCode = .reply op := by
  rw [MessageType.pageCode, Operation.code_of_pages hop, Option.getD_some]

theorem interpret_of_code (hop : op.pages? = some t) {f : Frame}
    (hcode : f.code = t.pageCode.toByte) :
    interpret t.pageCode t f = (Message.decode t f.payload).mapError .decode := by
  have herror : f.code ≠ MessageCode.error.toByte := by
    intro herror
    have hsame := MessageCode.toByte_injective (hcode.symm.trans herror)
    rw [pageCode_of_pages hop] at hsame
    cases hsame
  have hacknowledged : t.pageCode.isEmptyAck = false := by
    rw [pageCode_of_pages hop]
    exact Operation.isEmptyAck_of_pages hop
  rw [interpret, if_neg herror, if_neg (Decidable.not_not.mpr hcode), hacknowledged]
  simp only [Bool.false_eq_true, if_false]
  cases Message.decode t f.payload <;> rfl

theorem interpret_page (hop : op.pages? = some t) (p : Page t) :
    interpret t.pageCode t p.frame = .ok p.message := by
  have hdecode : Message.decode t p.frame.payload = .ok p.message := p.decodes
  rw [interpret_of_code hop rfl, hdecode]
  rfl

/-- The reader stops at the pages that are marked. -/
theorem isLast_page (p : Page t) : (Reading.pages t).isLast p.message = p.done := by
  obtain ⟨payload, m, entries, done, hfits, hdecode, hcarries⟩ := p
  cases hcarries with
  | buckets entries mark | keys entries mark | part phase response mark => cases mark <;> rfl

end Interpreting

/-! ## Reading pages -/

namespace Channel

variable {op : Operation} {t : MessageType} {ch : Channel} {rest : Bytes} {e : ClientError}

theorem receive_octets {f : Frame} (hfits : f.payload.length ≤ Frame.maxPayload)
    (h : ch.unread = f.octets ++ rest) :
    ∃ after : Channel, ch.receive = (.ok (some f), after) ∧ after.ending = ch.ending ∧
      after.unread = rest := by
  have hdecode := Frame.decode_octets_append hfits rest
  rw [← h] at hdecode
  obtain ⟨after, hreceive, hending, hunread⟩ := receive_of_frame hdecode
  refine ⟨after, hreceive, hending, ?_⟩
  rw [hunread, h]
  exact List.drop_left' f.length_octets

/-- A read from a stream that has not ended fails if there are too few octets. -/
theorem receive_of_shortage
    (h : ch.unread.length < Frame.headerLength ∨ Frame.decode ch.unread = .ok none)
    (hshortage : ch.shortage = some e) : ch.receive.1 = .error e := by
  rcases h with hlt | hdecode
  · have hdecode := Frame.decode_of_header_error (Frame.decodeHeader_of_lt hlt)
    obtain ⟨after, -, -, hreceive⟩ := receive_of_error hdecode
    rw [hreceive]
    simp only [shortRead, hshortage]
  · obtain ⟨after, hreceive, -, -⟩ := receive_of_incomplete hdecode
    rw [hreceive, hshortage, Option.getD_some]

/-- What comes in place of a page ends the reply with its error. -/
theorem receiveMore_of_interrupts (hop : op.pages? = some t)
    (h : Interrupts t ch.ending ch.unread e) (room : Nat) :
    (ch.receiveMore (.pages t) t.pageCode (room + 1)).1 = .error e := by
  have hframe {f : Frame} {rest : Bytes} (hfits : f.payload.length ≤ Frame.maxPayload)
      (hunread : ch.unread = f.octets ++ rest) (hinterpret : interpret t.pageCode t f = .error e) :
      (ch.receiveMore (.pages t) t.pageCode (room + 1)).1 = .error e := by
    obtain ⟨after, hreceive, -, -⟩ := receive_octets hfits hunread
    simp only [receiveMore, hreceive, Reading.messageType, hinterpret]
  have hfault (hreceive : ch.receive.1 = .error e) :
      (ch.receiveMore (.pages t) t.pageCode (room + 1)).1 = .error e := by
    rw [receiveMore]
    generalize ch.receive = received at hreceive
    obtain ⟨result, after⟩ := received
    obtain rfl : result = .error e := hreceive
    rfl
  generalize hunread : ch.unread = bs at h
  generalize hending : ch.ending = ending at h
  cases h with
  | refused hfits hcode hdecode rest =>
      refine hframe hfits hunread ?_
      rw [interpret, if_pos hcode, hdecode]
      rfl
  | garbled hfits hcode hdecode rest =>
      refine hframe hfits hunread ?_
      rw [interpret, if_pos hcode, hdecode]
  | foreign hfits herror hcode rest =>
      refine hframe hfits hunread ?_
      rw [interpret, if_neg herror, if_pos hcode]
  | undecodable hfits hcode hdecode rest =>
      refine hframe hfits hunread ?_
      rw [interpret_of_code hop hcode, hdecode]
      rfl
  | badLength hdecode hlength =>
      rw [← hunread] at hdecode
      obtain ⟨after, -, -, hreceive⟩ := receive_of_error hdecode
      apply hfault
      rw [hreceive]
      rcases hlength with rfl | ⟨size, rfl⟩ <;> rfl
  | ended =>
      have hdecode : Frame.decode ch.unread = .error (.short 0) := by
        rw [hunread]
        rfl
      obtain ⟨after, -, -, hreceive⟩ := receive_of_error hdecode
      simp only [shortRead, shortage, hending, if_true] at hreceive
      simp only [receiveMore, hreceive]
  | cutHeader hne hlt =>
      rw [← hunread] at hne hlt
      have hdecode := Frame.decode_of_header_error (Frame.decodeHeader_of_lt hlt)
      obtain ⟨after, -, -, hreceive⟩ := receive_of_error hdecode
      apply hfault
      rw [hreceive, ← hunread]
      simp only [shortRead, shortage, hending, List.length_eq_zero_iff, if_neg hne]
  | cutPayload hdecode =>
      rw [← hunread] at hdecode
      obtain ⟨after, hreceive, -, -⟩ := receive_of_incomplete hdecode
      apply hfault
      rw [hreceive]
      simp only [shortage, hending, Option.getD_none]
  | stalled h =>
      rw [← hunread] at h
      refine hfault (receive_of_shortage h ?_)
      simp only [shortage, hending]
  | broken fault h =>
      rw [← hunread] at h
      refine hfault (receive_of_shortage h ?_)
      simp only [shortage, hending]

/-- Pages that are not marked are read and the reader goes on. -/
theorem receiveMore_of_pages (hop : op.pages? = some t) {pages : List (Page t)}
    (hpages : ∀ p ∈ pages, p.done = false) (h : ch.unread = Page.stream pages ++ rest) (room : Nat) :
    ∃ after : Channel, after.unread = rest ∧ after.ending = ch.ending ∧
      ch.receiveMore (.pages t) t.pageCode (pages.length + room) =
        ((after.receiveMore (.pages t) t.pageCode room).1.map (pages.map Page.message ++ ·),
          (after.receiveMore (.pages t) t.pageCode room).2) := by
  induction pages generalizing ch with
  | nil =>
      refine ⟨ch, h, rfl, ?_⟩
      rw [List.length_nil, Nat.zero_add]
      rcases ch.receiveMore (.pages t) t.pageCode room with ⟨e | ms, after⟩ <;> rfl
  | cons p pages ih =>
      rw [Page.stream_cons, List.append_assoc] at h
      obtain ⟨next, hreceive, hending, hunread⟩ := receive_octets p.fits h
      obtain ⟨after, hrest, hending', hmore⟩ :=
        ih (fun q hq ↦ hpages q (List.mem_cons_of_mem p hq)) hunread
      refine ⟨after, hrest, hending'.trans hending, ?_⟩
      have hgoes : (Reading.pages t).isLast p.message = false :=
        (isLast_page p).trans (hpages p List.mem_cons_self)
      rw [List.length_cons, Nat.add_right_comm, receiveMore, hreceive]
      simp only [Reading.messageType, interpret_page hop, hgoes, Bool.false_eq_true, if_false, hmore]
      rcases after.receiveMore (.pages t) t.pageCode room with ⟨e | ms, last⟩ <;> rfl

/-- There is room for the page after those that have been read. -/
theorem exists_room {pages : List (Page t)} (h : ch.unread = Page.stream pages ++ rest) :
    ∃ room, ch.unread.length + 1 = pages.length + (room + 1) := by
  have hle := Page.length_le_length_stream pages
  refine ⟨ch.unread.length - pages.length, ?_⟩
  rw [h, List.length_append]
  omega

theorem receiveMore_of_breaksAfter (hop : op.pages? = some t) {pages : List (Page t)}
    (h : BreaksAfter pages ch.ending ch.unread e) :
    (ch.receiveMore (.pages t) t.pageCode (ch.unread.length + 1)).1 = .error e := by
  obtain ⟨rest, hunread, hinterrupts⟩ := h.interrupts
  obtain ⟨room, hroom⟩ := exists_room hunread
  obtain ⟨after, hrest, hending, hmore⟩ := receiveMore_of_pages hop h.goes_on hunread (room + 1)
  rw [hroom, hmore]
  dsimp only
  rw [receiveMore_of_interrupts hop (hending ▸ hrest ▸ hinterrupts)]
  rfl

theorem receiveMore_of_completes (hop : op.pages? = some t) {pages : List (Page t)} {last : Page t}
    (h : Completes pages last rest ch.unread) :
    ∃ after : Channel, after.unread = rest ∧
      ch.receiveMore (.pages t) t.pageCode (ch.unread.length + 1) =
        (.ok ((pages ++ [last]).map Page.message), after) := by
  have hunread : ch.unread = Page.stream pages ++ (last.frame.octets ++ rest) := by
    rw [h.eq_append, Page.stream_append, Page.stream_cons, List.append_assoc, List.append_assoc]
    rfl
  obtain ⟨room, hroom⟩ := exists_room hunread
  obtain ⟨next, hnext, -, hmore⟩ := receiveMore_of_pages hop h.goes_on hunread (room + 1)
  obtain ⟨after, hreceive, -, hrest⟩ := receive_octets last.fits hnext
  have hlast : (Reading.pages t).isLast last.message = true := (isLast_page last).trans h.done
  refine ⟨after, hrest, ?_⟩
  rw [hroom, hmore, receiveMore, hreceive]
  simp only [Reading.messageType, interpret_page hop, hlast, if_true, Except.map, List.map_append,
    List.map_cons, List.map_nil]

/-- The reader gets the messages of a complete reply and stops right behind it, and it fails on
every other stream with the error that comes first. -/
theorem receiveMore_pages_iff (hop : op.pages? = some t) (ch : Channel) :
    let (result, after) := ch.receiveMore (.pages t) t.pageCode (ch.unread.length + 1)
    (∀ ms rest, result = .ok ms ∧ after.unread = rest ↔
      ∃ (pages : List (Page t)) (last : Page t), Completes pages last rest ch.unread ∧
        ms = (pages ++ [last]).map Page.message) ∧
    ∀ e, result = .error e ↔ ∃ pages : List (Page t), BreaksAfter pages ch.ending ch.unread e := by
  dsimp only
  constructor
  · intro ms rest
    constructor
    · rintro ⟨hok, hrest⟩
      rcases completes_or_breaksAfter hop ch.ending ch.unread with
        ⟨pages, last, rest', hcompletes⟩ | ⟨pages, e, hbreaks⟩
      · obtain ⟨after, hafter, hread⟩ := receiveMore_of_completes hop hcompletes
        rw [hread] at hok hrest
        cases hok
        obtain rfl : rest' = rest := hafter.symm.trans hrest
        exact ⟨pages, last, hcompletes, rfl⟩
      · rw [receiveMore_of_breaksAfter hop hbreaks] at hok
        cases hok
    · rintro ⟨pages, last, hcompletes, rfl⟩
      obtain ⟨after, hafter, hread⟩ := receiveMore_of_completes hop hcompletes
      rw [hread]
      exact ⟨rfl, hafter⟩
  · intro e
    constructor
    · intro herror
      rcases completes_or_breaksAfter hop ch.ending ch.unread with
        ⟨pages, last, rest, hcompletes⟩ | ⟨pages, e', hbreaks⟩
      · obtain ⟨after, -, hread⟩ := receiveMore_of_completes hop hcompletes
        rw [hread] at herror
        cases herror
      · rw [receiveMore_of_breaksAfter hop hbreaks] at herror
        cases herror
        exact ⟨pages, hbreaks⟩
    · rintro ⟨pages, hbreaks⟩
      exact receiveMore_of_breaksAfter hop hbreaks

end Channel

/-! ## Listings as one message -/

namespace Wire.MessageType.IsListing

variable {t : MessageType} {m m' : Message}

theorem flat (ht : t.IsListing) : t.Flat := by
  rcases ht with rfl | rfl <;> exact ⟨by simp [fields], by simp [fields]⟩

theorem merge_eq (ht : t.IsListing) (m m' : Message) :
    m.merge t m' =
      [Slot.merge .repeated (m.getD 0 []) (m'.getD 0 []),
        Slot.merge .optional (m.getD 1 []) (m'.getD 1 [])] := by
  rcases ht with rfl | rfl <;> rfl

/-- A page followed by a marked one is a marked page with the entries of both. -/
theorem carries_merge (ht : t.IsListing) {entries entries' : List Bytes} {done : Bool}
    (h : t.Carries m entries done) (h' : t.Carries m' entries' true) :
    t.Carries (m.merge t m') (entries ++ entries') true := by
  have hentries : Slot.merge .repeated (entries.map .bytes) (entries'.map .bytes) =
      (entries ++ entries').map .bytes := by
    cases entries' with
    | nil => rw [List.map_nil, Slot.merge_nil, List.append_nil]
    | cons b entries' => exact List.map_append.symm
  generalize hdone : true = done' at h'
  rw [ht.merge_eq]
  rcases ht with rfl | rfl
  · cases h with
    | keys _ mark => cases h' with
      | keys _ mark' =>
          obtain rfl : mark' = some true := by cases mark' <;> simp_all
          exact hentries ▸ Carries.keys (entries ++ entries') (some true)
  · cases h with
    | buckets _ mark => cases h' with
      | buckets _ mark' =>
          obtain rfl : mark' = some true := by cases mark' <;> simp_all
          exact hentries ▸ Carries.buckets (entries ++ entries') (some true)

end Wire.MessageType.IsListing

/-- The payloads of a complete listing make one marked page that carries the entries of all. -/
theorem Completes.exists_single {t : MessageType} (ht : t.IsListing) {pages : List (Page t)}
    {last : Page t} {rest bs : Bytes} (h : Completes pages last rest bs) :
    ∃ m, Message.decode t ((pages ++ [last]).map Page.payload).flatten = .ok m ∧
      t.Carries m ((pages ++ [last]).flatMap Page.entries) true := by
  have hdone := h.done
  clear h
  induction pages with
  | nil =>
      refine ⟨last.message, ?_, ?_⟩
      · exact (congrArg (Message.decode t) (List.append_nil last.payload)).trans last.decodes
      · have hcarries := last.carries
        rw [hdone] at hcarries
        rwa [List.nil_append, List.flatMap_singleton]
  | cons p pages ih =>
      obtain ⟨m, hdecode, hcarries⟩ := ih
      refine ⟨p.message.merge t m, Message.decode_append ht.flat p.decodes hdecode, ?_⟩
      exact ht.carries_merge p.carries hcarries

end ReplicaClient
