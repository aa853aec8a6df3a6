import ReplicaClient.Proofs.Object.Provenance

/-!
# Objects and models at hand

Objects and models are made, fetched and loaded, edited, given other keys, saved and deleted in any
order and number, while one peer answers as it likes or not at all.  Each of them has a history of
its own, and no clock is sent that none of the histories tells of.
-/

namespace ReplicaClient

/-- A change that leaves the place and the clock of an object alone, such as one of its value, of
its options or of a conflict. -/
structure Edit where
  change : Object → Object
  mark_change : ∀ o, (change o).mark = o.mark

namespace Holding

/-- What has been asked and heard between two states of a journal. -/
def fresh (before after : Journal) : History :=
  (after.drop before.length).map .exchange

@[simp] theorem fresh_self (journal : Journal) : fresh journal journal = [] := by
  rw [fresh, List.drop_length]
  rfl

theorem fresh_append (journal more : Journal) :
    fresh journal (journal ++ more) = more.map .exchange := by
  rw [fresh, List.drop_left]

@[simp] theorem fresh_concat (journal : Journal) (e : Entry) :
    fresh journal (journal ++ [e]) = [.exchange e] :=
  fresh_append journal [e]

theorem mem_after_iff {before after : Journal} (h : before <+: after) (e : Entry) :
    e ∈ after ↔ e ∈ before ∨ .exchange e ∈ fresh before after := by
  obtain ⟨more, rfl⟩ := h
  rw [fresh_append, List.mem_append]
  apply or_congr_right
  constructor
  · exact List.mem_map_of_mem
  · intro hmem
    obtain ⟨e', he', heq⟩ := List.mem_map.mp hmem
    cases heq
    exact he'

def rename (hd : Holding) (key : String) : Holding :=
  ⟨((⟨hd.object, ()⟩ : Model Unit).setKey key).object, hd.history ++ [.naming key]⟩

def edit (hd : Holding) (e : Edit) : Holding :=
  { hd with object := e.change hd.object }

theorem mem_rename (hd : Holding) (key : String) (e : Entry) :
    .exchange e ∈ (hd.rename key).history ↔ .exchange e ∈ hd.history := by
  have hnaming : Event.exchange e ∉ [.naming key] := fun h ↦ by cases List.mem_singleton.mp h
  exact List.mem_append.trans (or_iff_left hnaming)

/-- Holds a dialogue on behalf of the object. -/
def use (hd : Holding) (peer : Peer) (journal : Journal) (call : Call)
    (act : Object → Dialogue (Except ClientError Unit × Object)) : Holding × Journal :=
  let r := (act hd.object).run (peer.answer call) journal
  (⟨r.1.2, hd.history ++ fresh journal r.2⟩, r.2)

end Holding

/-! ## Portfolios -/

/-- What becomes of the object in a model. -/
def Model.objectOf {D : Type} (dialogue : Dialogue (Except ClientError Unit × Model D)) :
    Dialogue (Except ClientError Unit × Object) :=
  dialogue.bind fun (result, m) ↦ .done (result, m.object)

/-- Several objects and models at hand, and all that has been said about them. -/
structure Portfolio where
  holdings : List Holding := []
  journal : Journal := []

namespace Portfolio

/-- The document of a model is its user's to change, so saving begins with any document. -/
inductive Action : Type 1 where
  | newObject (bucket : String) (bucketType : Option String) (key : String)
  | newModel (bucket key : String)
  | fetch (bucket : String) (bucketType : Option String) (key : String) (options : Options)
  | load (D : Type) [Mergeable D] (bucket key : String) (options : Options)
  | setKey (i : Nat) (key : String)
  | save (i : Nat) (D : Type) [Document D] (doc : D)
  | saveAs (i : Nat) (D : Type) [Document D] (doc : D) (key : String)
  | store (i : Nat)
  | reload (i : Nat)
  | delete (i : Nat)
  | edit (i : Nat) (e : Edit)

def take (pf : Portfolio) (object : Object) (journal : Journal) : Portfolio :=
  ⟨pf.holdings ++ [⟨object, Holding.fresh pf.journal journal⟩], journal⟩

/-- A tombstone is an object too. -/
def fetch (peer : Peer) (pf : Portfolio) (bucket : String) (bucketType : Option String)
    (key : String) (options : Options) : Portfolio :=
  match (Object.fetch bucket bucketType key options).run (peer.answer .fetch) pf.journal with
  | (.ok object, journal) => pf.take object journal
  | (.error (.notFound object), journal) => pf.take object journal
  | (.error _, journal) => { pf with journal }

/-- The tombstone that is reported when there is nothing to load is that of a fetch. -/
def load (peer : Peer) (pf : Portfolio) (D : Type) [Mergeable D] (bucket key : String)
    (options : Options) : Portfolio :=
  match (Model.load D bucket key options).run (peer.answer .fetch) pf.journal with
  | (.ok m, journal) => pf.take m.object journal
  | (.error _, journal) => { pf with journal }

def update (pf : Portfolio) (i : Nat) (f : Holding → Holding × Journal) : Portfolio :=
  match pf.holdings[i]? with
  | none => pf
  | some hd => ⟨pf.holdings.set i (f hd).1, (f hd).2⟩

def step (peer : Peer) (pf : Portfolio) : Action → Portfolio
  | .newObject bucket bucketType key => pf.take { bucket, bucketType, key } pf.journal
  | .newModel bucket key => pf.take (Model.new bucket key ()).object pf.journal
  | .fetch bucket bucketType key options => pf.fetch peer bucket bucketType key options
  | @Action.load D _ bucket key options => pf.load peer D bucket key options
  | .setKey i key => pf.update i fun hd ↦ (hd.rename key, pf.journal)
  | @Action.save i _ _ doc =>
      pf.update i (·.use peer pf.journal .store fun o ↦ Model.objectOf (Model.save ⟨o, doc⟩))
  | @Action.saveAs i _ _ doc key =>
      pf.update i fun hd ↦ (hd.rename key).use peer pf.journal .store fun _ ↦
        Model.objectOf (Model.saveAs ⟨hd.object, doc⟩ key)
  | .store i => pf.update i (·.use peer pf.journal .store Object.store)
  | .reload i => pf.update i (·.use peer pf.journal .reload Object.reload)
  | .delete i =>
      pf.update i (·.use peer pf.journal .delete fun o ↦ o.delete.bind fun result ↦
        .done (result, o))
  | .edit i e => pf.update i fun hd ↦ (hd.edit e, pf.journal)

def run (peer : Peer) (actions : List Action) : Portfolio :=
  actions.foldl (step peer) {}

end Portfolio

/-! ## What is said -/

namespace Holding

variable (peer : Peer) (journal : Journal)

/-- Whatever is said is added to the journal. -/
theorem prefix_run {α : Type} (call : Call) (dialogue : Dialogue α) :
    journal <+: (dialogue.run (peer.answer call) journal).2 := by
  induction dialogue generalizing journal with
  | done a => exact List.prefix_rfl
  | ask q next ih => exact (List.prefix_append journal _).trans (ih _ _)

/-- A fetch offers no clock. -/
theorem clockSent?_fetch (bucket : String) (bucketType : Option String) (key : String)
    (options : Options) {e : Entry}
    (h : .exchange e ∈ fresh journal
      ((Object.fetch bucket bucketType key options).run (peer.answer .fetch) journal).2) :
    e.clockSent? = none := by
  rw [Object.fetch] at h
  generalize ({ bucket, bucketType, key, options } : Object) = blank at h
  have hrun := peer.run_query .fetch blank.fetchRequest journal blank.afterFetch
  rw [hrun, fresh_concat] at h
  cases List.mem_singleton.mp h
  rfl

/-- Loading is a fetch, of which a model is then made. -/
theorem run_load (D : Type) [Mergeable D] (bucket key : String) (options : Options) :
    (Model.load D bucket key options).run (peer.answer .fetch) journal =
      if bucket.isEmpty then (.error .emptyBucketName, journal)
      else
        let (fetched, after) :=
          (Object.fetch bucket none key options).run (peer.answer .fetch) journal
        (fetched.bind Model.ofObject, after) := by
  rw [Model.load, Store.getFrom, Store.bucketHandle]
  by_cases hbucket : bucket.isEmpty = true
  · rw [if_pos hbucket, if_pos hbucket]
    rfl
  · rw [if_neg hbucket, if_neg hbucket]
    dsimp only [Dialogue.andThen, Bucket.get]
    rw [Dialogue.run_bind]
    cases (Object.fetch bucket none key options).run (peer.answer .fetch) journal with
    | mk fetched after => cases fetched <;> rfl

theorem clockSent?_load (D : Type) [Mergeable D] (bucket key : String) (options : Options)
    {e : Entry}
    (h : .exchange e ∈ fresh journal
      ((Model.load D bucket key options).run (peer.answer .fetch) journal).2) :
    e.clockSent? = none := by
  rw [run_load] at h
  split at h
  · rw [fresh_self] at h
    exact absurd h List.not_mem_nil
  · exact clockSent?_fetch peer journal bucket none key options h

end Holding

/-! ## Every offer is on record -/

namespace Portfolio

variable {pf : Portfolio}

/-- What every step keeps holds after every run. -/
theorem run_of_steps (peer : Peer) {P : Portfolio → Prop} (h : P {})
    (hstep : ∀ pf a, P pf → P (pf.step peer a)) (actions : List Action) : P (run peer actions) := by
  have hfold (pf : Portfolio) (hpf : P pf) : P (actions.foldl (step peer) pf) := by
    induction actions generalizing pf with
    | nil => exact hpf
    | cons a actions ih => exact ih (pf.step peer a) (hstep pf a hpf)
  exact hfold {} h

/-- Histories tell of nothing that the journal does not have, and of every offer that it has. -/
structure Recorded (pf : Portfolio) : Prop where
  told : ∀ hd ∈ pf.holdings, ∀ e, .exchange e ∈ hd.history → e ∈ pf.journal
  kept : ∀ e ∈ pf.journal, e.clockSent? ≠ none →
    ∃ hd ∈ pf.holdings, .exchange e ∈ hd.history

namespace Recorded

theorem take (h : pf.Recorded) {journal : Journal} (hgrows : pf.journal <+: journal)
    (o : Object) : (pf.take o journal).Recorded where
  told hd hmem e he := by
    apply (Holding.mem_after_iff hgrows e).mpr
    rcases List.mem_append.mp hmem with hold | hnew
    · exact Or.inl (h.told hd hold e he)
    · cases List.mem_singleton.mp hnew
      exact Or.inr he
  kept e he hsent := by
    rcases (Holding.mem_after_iff hgrows e).mp he with hbefore | hfresh
    · obtain ⟨hd, hmem, hhistory⟩ := h.kept e hbefore hsent
      exact ⟨hd, List.mem_append_left _ hmem, hhistory⟩
    · exact ⟨_, List.mem_append_right _ List.mem_cons_self, hfresh⟩

/-- What offers no clock need not be kept. -/
theorem pass (h : pf.Recorded) {journal : Journal} (hgrows : pf.journal <+: journal)
    (hsilent : ∀ e, .exchange e ∈ Holding.fresh pf.journal journal → e.clockSent? = none) :
    ({ pf with journal } : Portfolio).Recorded where
  told hd hmem e he := (Holding.mem_after_iff hgrows e).mpr (Or.inl (h.told hd hmem e he))
  kept e he hsent := by
    rcases (Holding.mem_after_iff hgrows e).mp he with hbefore | hfresh
    · exact h.kept e hbefore hsent
    · exact absurd (hsilent e hfresh) hsent

theorem update (h : pf.Recorded) (i : Nat) {f : Holding → Holding × Journal}
    (hgrows : ∀ hd, pf.journal <+: (f hd).2)
    (hhistory : ∀ hd e, .exchange e ∈ (f hd).1.history ↔
      .exchange e ∈ hd.history ∨ .exchange e ∈ Holding.fresh pf.journal (f hd).2) :
    (pf.update i f).Recorded := by
  rw [Portfolio.update]
  split
  · exact h
  · rename_i hd hi
    have hlt : i < pf.holdings.length := (List.getElem?_eq_some_iff.mp hi).choose
    have hset : (f hd).1 ∈ pf.holdings.set i (f hd).1 := List.mem_set hlt (f hd).1
    constructor
    · intro hd' hmem e he
      apply (Holding.mem_after_iff (hgrows hd) e).mpr
      rcases List.mem_or_eq_of_mem_set hmem with hold | rfl
      · exact Or.inl (h.told hd' hold e he)
      · exact ((hhistory hd e).mp he).imp_left (h.told hd (List.mem_of_getElem? hi) e)
    · intro e he hsent
      rcases (Holding.mem_after_iff (hgrows hd) e).mp he with hbefore | hfresh
      · obtain ⟨hd', hmem, he'⟩ := h.kept e hbefore hsent
        obtain ⟨j, hj⟩ := List.mem_iff_getElem?.mp hmem
        by_cases hij : i = j
        · obtain rfl : hd' = hd := by
            rw [← hij, hi] at hj
            exact (Option.some.inj hj).symm
          exact ⟨_, hset, (hhistory _ e).mpr (Or.inl he')⟩
        · have hother : (pf.holdings.set i (f hd).1)[j]? = some hd' := by
            rw [List.getElem?_set_ne hij, hj]
          exact ⟨hd', List.mem_of_getElem? hother, he'⟩
      · exact ⟨_, hset, (hhistory hd e).mpr (Or.inr hfresh)⟩

variable (peer : Peer)

theorem fetch (h : pf.Recorded) (bucket : String) (bucketType : Option String) (key : String)
    (options : Options) : (pf.fetch peer bucket bucketType key options).Recorded := by
  have hgrows := Holding.prefix_run peer pf.journal .fetch
    (Object.fetch bucket bucketType key options)
  have hsilent := fun e ↦
    @Holding.clockSent?_fetch peer pf.journal bucket bucketType key options e
  rw [Portfolio.fetch]
  split
  · rename_i hrun
    rw [hrun] at hgrows
    exact h.take hgrows _
  · rename_i hrun
    rw [hrun] at hgrows
    exact h.take hgrows _
  · rename_i hrun
    rw [hrun] at hgrows hsilent
    exact h.pass hgrows hsilent

theorem load (h : pf.Recorded) (D : Type) [Mergeable D] (bucket key : String)
    (options : Options) : (pf.load peer D bucket key options).Recorded := by
  have hgrows := Holding.prefix_run peer pf.journal .fetch (Model.load D bucket key options)
  have hsilent := fun e ↦ @Holding.clockSent?_load peer pf.journal D _ bucket key options e
  rw [Portfolio.load]
  split
  · rename_i hrun
    rw [hrun] at hgrows
    exact h.take hgrows _
  · rename_i hrun
    rw [hrun] at hgrows hsilent
    exact h.pass hgrows hsilent

section Update

variable (i : Nat) {f : Holding → Holding}
  (hf : ∀ hd e, .exchange e ∈ (f hd).history ↔ .exchange e ∈ hd.history)

include hf

theorem change (h : pf.Recorded) : (pf.update i fun hd ↦ (f hd, pf.journal)).Recorded := by
  apply h.update i
  · intro hd
    exact List.prefix_rfl
  · intro hd e
    rw [hf, Holding.fresh_self]
    exact (or_iff_left List.not_mem_nil).symm

theorem use (h : pf.Recorded) (call : Call)
    (act : Holding → Object → Dialogue (Except ClientError Unit × Object)) :
    (pf.update i fun hd ↦ (f hd).use peer pf.journal call (act hd)).Recorded := by
  apply h.update i
  · intro hd
    exact Holding.prefix_run peer pf.journal call (act hd (f hd).object)
  · intro hd e
    exact List.mem_append.trans (or_congr_left (hf hd e))

end Update

theorem step (h : pf.Recorded) (a : Action) : (pf.step peer a).Recorded := by
  cases a with
  | newObject bucket bucketType key => exact h.take List.prefix_rfl _
  | newModel bucket key => exact h.take List.prefix_rfl _
  | fetch bucket bucketType key options => exact h.fetch peer bucket bucketType key options
  | load D bucket key options => exact h.load peer D bucket key options
  | setKey i key => exact h.change i fun hd e ↦ hd.mem_rename key e
  | save i D doc => exact h.use peer i (fun _ _ ↦ Iff.rfl) .store _
  | saveAs i D doc key => exact h.use peer i (fun hd e ↦ hd.mem_rename key e) .store _
  | store i => exact h.use peer i (fun _ _ ↦ Iff.rfl) .store _
  | reload i => exact h.use peer i (fun _ _ ↦ Iff.rfl) .reload _
  | delete i => exact h.use peer i (fun _ _ ↦ Iff.rfl) .delete _
  | edit i e => exact h.change i fun _ _ ↦ Iff.rfl

theorem run (actions : List Action) : (run peer actions).Recorded :=
  run_of_steps peer ⟨fun _ hmem ↦ absurd hmem List.not_mem_nil, fun _ hmem ↦
    absurd hmem List.not_mem_nil⟩ (fun _ a h ↦ h.step peer a) actions

end Recorded

end Portfolio
end ReplicaClient
