import ReplicaClient.Proofs.Model.Portfolio

/-!
# Models under new keys

Whatever happens to an object or a model is a series of turns, so every clock that is sent comes
from the last reply that this object or model has heard, and is sent to the place of that reply
unless another key was given since.
-/

namespace ReplicaClient

/-! ## Turns of requests -/

namespace Holding

variable {hd : Holding}

theorem Turn.of_error {call : Call} {q : Request} (e : ClientError)
    (hplace : q.place? = some hd.object.place)
    (hoffers : (⟨call, q, .error e⟩ : Entry).Offers hd.object.vclock) :
    Turn hd ⟨hd.object, hd.history ++ [.exchange ⟨call, q, .error e⟩]⟩ :=
  Turn.ask _ hplace hoffers (Entry.clockHeard?_error call q e)

/-- What a read brings, unless its reply is disregarded. -/
theorem Turn.of_get {call : Call} {q : GetRequest} {reply : GetReply} {o : Object}
    (hplace : (Request.get q).place? = some hd.object.place)
    (hoffers : (⟨call, .get q, .ok reply⟩ : Entry).Offers hd.object.vclock)
    (hregarded : (⟨call, .get q, .ok reply⟩ : Entry).disregarded = false)
    (hmark : o.mark = (hd.object.place, reply.vclock.getD [])) :
    Turn hd ⟨o, hd.history ++ [.exchange ⟨call, .get q, .ok reply⟩]⟩ := by
  apply Turn.hear _ _ hd.object.place hplace hoffers
  · have hclock : o.vclock = reply.vclock.getD [] := congrArg Prod.snd hmark
    rw [Entry.clockHeard?, hregarded, hclock]
    rfl
  · rw [Entry.about?_get, hplace]
  · rw [Object.place_named]
    exact congrArg Prod.fst hmark

variable (peer : Peer) (journal : Journal)

theorem turn_store (hd : Holding) : Turn hd (hd.use peer journal .store Object.store).1 := by
  rw [use, Object.store, peer.run_update]
  dsimp only
  rw [fresh_concat]
  cases peer.reply journal (.put hd.object.putRequest) with
  | error e =>
      apply Turn.of_error e hd.object.place?_putRequest
      rintro c ⟨⟩
      rfl
  | ok reply =>
      apply Turn.hear _ _ _ hd.object.place?_putRequest
      · rintro c ⟨⟩
        rfl
      · exact congrArg some (hd.object.vclock_afterPut reply).symm
      · exact Entry.about?_put hd.object .store reply
      · exact hd.object.place_afterPut reply

/-- A reload sends the clock with the place.  Its reply may say that nothing has changed. -/
theorem turn_reload (hd : Holding) : Turn hd (hd.use peer journal .reload Object.reload).1 := by
  rw [use, Object.reload]
  by_cases hkey : hd.object.key.isEmpty = true
  · rw [if_pos hkey, Dialogue.run]
    dsimp only
    rw [fresh_self, List.append_nil]
    exact Turn.edit _ rfl
  · have hrun := peer.run_update .reload hd.object.reloadRequest journal hd.object
      hd.object.afterReload
    rw [if_neg hkey, hrun]
    dsimp only
    rw [fresh_concat]
    have hoffers (outcome : Except ClientError GetReply) :
        (⟨.reload, hd.object.reloadRequest, outcome⟩ : Entry).Offers hd.object.vclock := by
      rintro c ⟨⟩
      rfl
    cases peer.reply journal hd.object.reloadRequest with
    | error e => exact Turn.of_error e rfl (hoffers _)
    | ok reply =>
        cases hunchanged : reply.unchanged.getD false with
        | true =>
            have hkept : hd.object.afterReload reply = (.ok (), hd.object) := if_pos hunchanged
            have hdisregarded :
                (⟨.reload, hd.object.reloadRequest, .ok reply⟩ : Entry).disregarded = true :=
              hunchanged
            dsimp only
            rw [hkept]
            apply Turn.ask _ rfl (hoffers _)
            rw [Entry.clockHeard?, hdisregarded]
            rfl
        | false =>
            apply Turn.of_get rfl (hoffers _) hunchanged
            exact hd.object.mark_afterReload hunchanged

theorem turn_delete (hd : Holding) :
    Turn hd (hd.use peer journal .delete fun o ↦
      o.delete.bind fun result ↦ .done (result, o)).1 := by
  rw [use, Dialogue.run_bind, Object.delete]
  by_cases hkey : hd.object.key.isEmpty = true
  · rw [if_pos hkey, Dialogue.refuse, Dialogue.run, Dialogue.run]
    dsimp only
    rw [fresh_self, List.append_nil]
    exact Turn.edit _ rfl
  · rw [if_neg hkey, peer.run_query, Dialogue.run]
    dsimp only
    rw [fresh_concat]
    have hoffers (outcome : Except ClientError Unit) :
        (⟨.delete, .delete hd.object.deleteRequest, outcome⟩ : Entry).Offers
          hd.object.vclock := by
      rintro c ⟨⟩
      rfl
    cases peer.reply journal (.delete hd.object.deleteRequest) with
    | error e => exact Turn.of_error e rfl (hoffers _)
    | ok reply => exact Turn.ask _ rfl (hoffers _) rfl

end Holding

namespace Model

/-- If the document can be encoded, saving a model is a store of its object with the document
written over it. -/
theorem objectOf_save {D : Type} [Document D] {doc : D} {body : Bytes} {links : List Link}
    (hencode : Document.encode doc = .ok (body, links)) (o : Object) :
    objectOf (save ⟨o, doc⟩) = (withDocument o (relationTags D) body links).store := by
  rw [save, hencode]
  dsimp only
  rw [objectOf, Dialogue.bind_assoc]
  exact Dialogue.bind_done _

end Model

namespace Holding

variable (peer : Peer) (journal : Journal)

theorem turns_save (hd : Holding) {D : Type} [Document D] (doc : D) :
    Turns hd (hd.use peer journal .store fun o ↦ Model.objectOf (Model.save ⟨o, doc⟩)).1 := by
  cases hencode : Document.encode doc with
  | error e =>
      have hsave (o : Object) : Model.objectOf (Model.save ⟨o, doc⟩) = .done (.error e, o) := by
        rw [Model.save, hencode]
        rfl
      simp only [use, hsave, Dialogue.run, fresh_self, List.append_nil]
      exact Relation.ReflTransGen.refl
  | ok encoded =>
      obtain ⟨body, links⟩ := encoded
      simp only [Model.objectOf_save hencode]
      apply Relation.ReflTransGen.head
      · exact Turn.edit _ (Model.mark_withDocument hd.object (Model.relationTags D) body links)
      · exact Relation.ReflTransGen.single (turn_store peer journal _)

/-- Saving under another key gives this key first. -/
theorem turns_saveAs (hd : Holding) {D : Type} [Document D] (doc : D) (key : String) :
    Turns hd ((hd.rename key).use peer journal .store fun _ ↦
      Model.objectOf (Model.saveAs ⟨hd.object, doc⟩ key)).1 :=
  Relation.ReflTransGen.head (Turn.name key) ((hd.rename key).turns_save peer journal doc)

/-! ### Beginnings -/

/-- A fetch brings an object, or the tombstone of one, that has heard the reply. -/
theorem turn_of_fetch {bucket : String} {bucketType : Option String} {key : String}
    {options : Options} {o : Object} {after : Journal}
    (h : (Object.fetch bucket bucketType key options).run (peer.answer .fetch) journal =
        (.ok o, after) ∨
      (Object.fetch bucket bucketType key options).run (peer.answer .fetch) journal =
        (.error (.notFound o), after)) :
    Turn ⟨{ bucket, bucketType, key, options }, []⟩ ⟨o, fresh journal after⟩ := by
  rw [Object.fetch] at h
  generalize ({ bucket, bucketType, key, options } : Object) = blank at h ⊢
  have hrun := peer.run_query .fetch blank.fetchRequest journal blank.afterFetch
  rw [hrun] at h
  have hafter : after =
      journal ++ [⟨.fetch, blank.fetchRequest, peer.reply journal blank.fetchRequest⟩] := by
    rcases h with h | h <;> exact (congrArg Prod.snd h).symm
  rw [hafter, fresh_concat]
  cases hreply : peer.reply journal blank.fetchRequest with
  | error e =>
      rw [hreply] at h
      rcases h with h | h
      · cases h
      · cases h
        exact absurd hreply (peer.notFound_ne journal _ o)
  | ok reply =>
      rw [hreply] at h
      have hmade : blank.afterFetch reply = .ok o ∨
          blank.afterFetch reply = .error (.notFound o) :=
        h.imp (congrArg Prod.fst) (congrArg Prod.fst)
      have hoffers : (⟨.fetch, blank.fetchRequest, .ok reply⟩ : Entry).Offers blank.vclock := by
        intro c hsent
        cases hsent
      exact @Turn.of_get ⟨blank, []⟩ .fetch _ reply o rfl hoffers rfl (Object.mark_afterFetch hmade)

theorem turns_of_load {D : Type} [Mergeable D] {bucket key : String} {options : Options}
    {m : Model D} {after : Journal}
    (h : (Model.load D bucket key options).run (peer.answer .fetch) journal = (.ok m, after)) :
    Turns ⟨{ bucket, key, options }, []⟩ ⟨m.object, fresh journal after⟩ := by
  rw [run_load] at h
  split at h
  · cases h
  · cases hfetch : (Object.fetch bucket none key options).run (peer.answer .fetch) journal with
    | mk fetched after' =>
        rw [hfetch] at h
        cases fetched with
        | error e => cases h
        | ok o =>
            have hmodel : Model.ofObject o = .ok m := congrArg Prod.fst h
            have hafter : after' = after := congrArg Prod.snd h
            apply Relation.ReflTransGen.tail
            · exact Relation.ReflTransGen.single (turn_of_fetch peer journal (Or.inl hfetch))
            · rw [hafter]
              exact Turn.edit _ (Model.mark_ofObject hmodel)

end Holding

/-! ## Every clock is traced -/

namespace Portfolio

variable {pf : Portfolio}

def Traced (pf : Portfolio) : Prop :=
  ∀ hd ∈ pf.holdings, hd.Traced

namespace Traced

theorem take (h : pf.Traced) {o : Object} {journal : Journal}
    (ho : Holding.Traced ⟨o, Holding.fresh pf.journal journal⟩) : (pf.take o journal).Traced := by
  intro hd hmem
  rcases List.mem_append.mp hmem with hold | hnew
  · exact h hd hold
  · rw [List.mem_singleton.mp hnew]
    exact ho

theorem take_blank (h : pf.Traced) {o : Object} (ho : o.vclock = []) :
    (pf.take o pf.journal).Traced := by
  apply h.take
  rw [Holding.fresh_self]
  exact Holding.Traced.of_blank ho

theorem update (h : pf.Traced) (i : Nat) {f : Holding → Holding × Journal}
    (hf : ∀ hd : Holding, Holding.Turns hd (f hd).1) : (pf.update i f).Traced := by
  rw [Portfolio.update]
  split
  · exact h
  · rename_i hd hi
    intro hd' hmem
    rcases List.mem_or_eq_of_mem_set hmem with hold | hnew
    · exact h hd' hold
    · rw [hnew]
      exact (h hd (List.mem_of_getElem? hi)).turns (hf hd)

variable (peer : Peer)

theorem fetch (h : pf.Traced) (bucket : String) (bucketType : Option String) (key : String)
    (options : Options) : (pf.fetch peer bucket bucketType key options).Traced := by
  have hblank : Holding.Traced ⟨{ bucket, bucketType, key, options }, []⟩ :=
    Holding.Traced.of_blank rfl
  rw [Portfolio.fetch]
  split
  · rename_i hrun
    exact h.take (hblank.turn (Holding.turn_of_fetch peer pf.journal (Or.inl hrun)))
  · rename_i hrun
    exact h.take (hblank.turn (Holding.turn_of_fetch peer pf.journal (Or.inr hrun)))
  · exact h

theorem load (h : pf.Traced) (D : Type) [Mergeable D] (bucket key : String) (options : Options) :
    (pf.load peer D bucket key options).Traced := by
  have hblank : Holding.Traced ⟨{ bucket, key, options }, []⟩ := Holding.Traced.of_blank rfl
  rw [Portfolio.load]
  split
  · rename_i hrun
    exact h.take (hblank.turns (Holding.turns_of_load peer pf.journal hrun))
  · exact h

theorem step (h : pf.Traced) (a : Action) : (pf.step peer a).Traced := by
  cases a with
  | newObject bucket bucketType key => exact h.take_blank rfl
  | newModel bucket key => exact h.take_blank rfl
  | fetch bucket bucketType key options => exact h.fetch peer bucket bucketType key options
  | load D bucket key options => exact h.load peer D bucket key options
  | setKey i key => exact h.update i fun hd ↦ Relation.ReflTransGen.single (Holding.Turn.name key)
  | save i D doc => exact h.update i fun hd ↦ hd.turns_save peer pf.journal doc
  | saveAs i D doc key => exact h.update i fun hd ↦ hd.turns_saveAs peer pf.journal doc key
  | store i =>
      exact h.update i fun hd ↦ Relation.ReflTransGen.single (hd.turn_store peer pf.journal)
  | reload i =>
      exact h.update i fun hd ↦ Relation.ReflTransGen.single (hd.turn_reload peer pf.journal)
  | delete i =>
      exact h.update i fun hd ↦ Relation.ReflTransGen.single (hd.turn_delete peer pf.journal)
  | edit i e =>
      exact h.update i fun hd ↦
        Relation.ReflTransGen.single (Holding.Turn.edit _ (e.mark_change hd.object))

theorem run (actions : List Action) : (run peer actions).Traced :=
  run_of_steps peer (fun _ hmem ↦ absurd hmem List.not_mem_nil) (fun _ a h ↦ h.step peer a) actions

end Traced

/-- Every request that offers a clock was made for an object or a model, and offers what the last
reply before it has brought there.  It goes to the place of this reply just if no other key was
given since and the reply's key is text. -/
theorem clock_sent_iff (peer : Peer) (actions : List Action) (e : Entry) (c : Bytes)
    (hmem : e ∈ (run peer actions).journal) (hsent : e.clockSent? = some (some c)) :
    (∃ hd ∈ (run peer actions).holdings, .exchange e ∈ hd.history) ∧
      ∀ hd ∈ (run peer actions).holdings, ∀ past rest : Holding.History,
        hd.history = past ++ .exchange e :: rest →
        ∃ source since p, past.Heard source since ∧ source ∈ (run peer actions).journal ∧
          source.clockHeard? = some c ∧ source.about? = some p ∧
          e.request.place? = some (p.named since.given) ∧
          (e.request.place? = some p ↔
            ∃ key, p.key = Utf8.encode key ∧ ∀ k, since.given = some k → k = key) := by
  have hrecorded := Recorded.run peer actions
  constructor
  · apply hrecorded.kept e hmem
    rw [hsent]
    exact Option.some_ne_none _
  · intro hd hhd past rest hsplit
    obtain ⟨place, hplace, source, since, p, hheard, hclock, habout, rfl⟩ :=
      (Traced.run peer actions hd hhd).sent past e rest c hsplit hsent
    have hsource : .exchange source ∈ hd.history := by
      rw [hsplit]
      exact List.mem_append_left _ hheard.mem
    refine ⟨source, since, p, hheard, hrecorded.told hd hhd source hsource, hclock, habout,
      hplace, ?_⟩
    rw [hplace, Option.some_inj]
    exact p.named_eq_iff since.given

/-- A peer that names the same clock to every writer. -/
def markingPeer : Peer where
  reply _
    | .put _ => .ok { vclock := some [1] }
    | q => .ok (q.reply [])
  notFound_ne past q o h := by
    cases q <;> cases h

/-- A document without fields. -/
structure Slip where
  deriving Inhabited

instance : Document Slip where
  typeName := "Slip"
  fields := []
  readField _ _ := .ok none
  writeField slip _ _ := .ok slip

/-- A model is saved, given another key and saved again. -/
def renamed : Portfolio :=
  run markingPeer [.newModel "b" "k", .save 0 Slip {}, .setKey 0 "l", .save 0 Slip {}]

/-- The second save sends a clock to a key that no reply has been about. -/
theorem clock_sent_iff_renamed :
    ∃ first second, renamed.journal = [first, second] ∧
      second.clockSent? = some (some [1]) ∧
      ((∃ hd ∈ renamed.holdings, .exchange second ∈ hd.history) ∧
        ∀ hd ∈ renamed.holdings, ∀ past rest : Holding.History,
          hd.history = past ++ .exchange second :: rest →
          ∃ source since p, past.Heard source since ∧ source ∈ renamed.journal ∧
            source.clockHeard? = some [1] ∧ source.about? = some p ∧
            second.request.place? = some (p.named since.given) ∧
            (second.request.place? = some p ↔
              ∃ key, p.key = Utf8.encode key ∧ ∀ k, since.given = some k → k = key)) ∧
      first.about? = some ⟨Utf8.encode "b", none, Utf8.encode "k"⟩ ∧
      second.request.place? = some ⟨Utf8.encode "b", none, Utf8.encode "l"⟩ := by
  obtain ⟨first, second, hjournal, hsent, hfirst, hsecond⟩ :
      ∃ first second, renamed.journal = [first, second] ∧
        second.clockSent? = some (some [1]) ∧
        first.about? = some ⟨Utf8.encode "b", none, Utf8.encode "k"⟩ ∧
        second.request.place? = some ⟨Utf8.encode "b", none, Utf8.encode "l"⟩ :=
    ⟨_, _, rfl, rfl, rfl, rfl⟩
  have hmem : second ∈ renamed.journal := by
    rw [hjournal]
    exact List.mem_cons_of_mem _ List.mem_cons_self
  have hclock := clock_sent_iff markingPeer _ second [1] hmem hsent
  exact ⟨first, second, hjournal, hsent, hclock, hfirst, hsecond⟩

end Portfolio
end ReplicaClient
