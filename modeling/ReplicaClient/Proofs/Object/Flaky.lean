import ReplicaClient.Proofs.Object.Cabinet

/-!
# A store that fails at times

A cabinet that now and then answers a request with an error instead.  A request that fails may have
been carried out or not, and as long as none fails, all goes as with the cabinet.
-/

namespace ReplicaClient

structure Flaky (σ : Type) where
  cabinet : Cabinet σ
  fails : Request → σ → Option ClientError
  /-- What becomes of the state when a request fails. -/
  stumble : Request → σ → σ
  moves : ∀ q s, cabinet.held (stumble q s) = cabinet.held s ∨
    cabinet.held (stumble q s) = cabinet.held (cabinet.answer q s).2

namespace Flaky

def answer {σ : Type} (flaky : Flaky σ) (q : Request) (s : σ) : Except ClientError q.Reply × σ :=
  match flaky.fails q s with
  | some e => (.error e, flaky.stumble q s)
  | none => flaky.cabinet.answer q s

def held {σ : Type} (flaky : Flaky σ) (s : σ) : Address → Option Content :=
  flaky.cabinet.held s

/-- A cabinet that never fails. -/
def reliable {σ : Type} (cabinet : Cabinet σ) : Flaky σ where
  cabinet
  fails _ _ := none
  stumble _ s := s
  moves _ _ := Or.inl rfl

/-- A store that does not take a certain value. -/
def refusing (value : Bytes) : Flaky (Address → Option Content) where
  cabinet := .plain
  fails
    | .put q, _ => if q.content.value = value then some .connectionClosed else none
    | _, _ => none
  stumble _ s := s
  moves _ _ := Or.inl rfl

variable {α β σ τ : Type} (flaky : Flaky σ)

/-- The first request of a dialogue that fails. -/
def stop : Dialogue α → σ → Option Request
  | .done _, _ => none
  | .ask q next, s =>
      match flaky.fails q s with
      | some _ => some q
      | none => stop (next (flaky.cabinet.answer q s).1) (flaky.cabinet.answer q s).2

variable {flaky} {s s' : σ}

theorem run_of_stop_eq_none {d : Dialogue α} (h : flaky.stop d s = none) :
    d.run flaky.answer s = d.run flaky.cabinet.answer s := by
  induction d generalizing s with
  | done a => rfl
  | ask q next ih =>
      unfold stop at h
      split at h
      · cases h
      next hfails =>
        simp only [Dialogue.run, answer, hfails]
        exact ih _ h

theorem stop_bind (d : Dialogue α) (f : α → Dialogue β) (s : σ) :
    flaky.stop (d.bind f) s = (flaky.stop d s).or
      (flaky.stop (f (d.run flaky.cabinet.answer s).1) (d.run flaky.cabinet.answer s).2) := by
  induction d generalizing s with
  | done a => rfl
  | ask q next ih =>
      simp only [Dialogue.bind, stop, Dialogue.run]
      cases flaky.fails q s with
      | some e => rfl
      | none => exact ih _ _

/-- A dialogue whose first part does not fail goes on as with the cabinet. -/
theorem stop_bind_of_none {d : Dialogue α} {a : α} (hd : flaky.stop d s = none)
    (hrun : d.run flaky.cabinet.answer s = (a, s')) (f : α → Dialogue β) :
    flaky.stop (d.bind f) s = flaky.stop (f a) s' := by
  rw [stop_bind, hd, hrun]
  rfl

theorem stop_bind_of_some {d : Dialogue α} {q : Request} (hd : flaky.stop d s = some q)
    (f : α → Dialogue β) : flaky.stop (d.bind f) s = some q := by
  rw [stop_bind, hd]
  rfl

/-! ## Dialogues of one request -/

variable (flaky)

theorem query_cases (q : Request) (f : q.Reply → Except ClientError α) (s : σ) :
    flaky.stop (.query q f) s = none ∨
    ∃ e, flaky.stop (.query q f) s = some q ∧
      (Dialogue.query q f).run flaky.answer s = (.error e, flaky.stumble q s) := by
  unfold Dialogue.query stop
  cases hfails : flaky.fails q s with
  | some e =>
      refine Or.inr ⟨e, rfl, ?_⟩
      simp only [Dialogue.run, answer, hfails]
  | none =>
      left
      dsimp only
      cases (flaky.cabinet.answer q s).1 <;> rfl

theorem update_cases (handle : τ) (q : Request) (f : q.Reply → Except ClientError α × τ) (s : σ) :
    flaky.stop (.update handle q f) s = none ∨
    ∃ e, flaky.stop (.update handle q f) s = some q ∧
      (Dialogue.update handle q f).run flaky.answer s = ((.error e, handle), flaky.stumble q s) := by
  unfold Dialogue.update stop
  cases hfails : flaky.fails q s with
  | some e =>
      refine Or.inr ⟨e, rfl, ?_⟩
      simp only [Dialogue.run, answer, hfails]
  | none =>
      left
      dsimp only
      cases (flaky.cabinet.answer q s).1 <;> rfl

/-- An object that cannot be stored may have taken its place all the same. -/
theorem store_cases (o : Object) (s : σ) :
    flaky.stop o.store s = none ∨
    ∃ e s', flaky.stop o.store s = some (.put o.putRequest) ∧
      o.store.run flaky.answer s = ((.error e, o), s') ∧
      (flaky.held s' = flaky.held s ∨
        flaky.held s' = flaky.held (o.store.run flaky.cabinet.answer s).2) := by
  have hafter : (o.store.run flaky.cabinet.answer s).2 =
      (flaky.cabinet.answer (.put o.putRequest) s).2 :=
    congrArg Prod.snd (Dialogue.run_update flaky.cabinet.answer (.put o.putRequest) s o _)
  rcases flaky.update_cases o (.put o.putRequest) (fun reply ↦ (.ok (), o.afterPut reply)) s with
    hnone | ⟨e, hstop, hrun⟩
  · exact Or.inl hnone
  · refine Or.inr ⟨e, _, hstop, hrun, ?_⟩
    rw [hafter]
    exact flaky.moves _ s

theorem getFrom_cases {bucket : String} (hbucket : bucket ≠ "") (key : String) (options : Options)
    (s : σ) :
    flaky.stop (Store.getFrom bucket key options) s = none ∨
    ∃ e q s', flaky.stop (Store.getFrom bucket key options) s = some (.get q) ∧
      (Store.getFrom bucket key options).run flaky.answer s = (.error e, s') ∧
      flaky.held s' = flaky.held s := by
  have hget : Store.getFrom bucket key options = Object.fetch bucket none key options := by
    rw [Store.getFrom, Store.bucketHandle, if_neg (by rwa [String.isEmpty_iff])]
    rfl
  rw [hget]
  let o : Object := { bucket, key, options }
  rcases flaky.query_cases o.fetchRequest o.afterFetch s with hnone | ⟨e, hstop, hrun⟩
  · exact Or.inl hnone
  · refine Or.inr ⟨e, _, _, hstop, hrun, ?_⟩
    rcases flaky.moves o.fetchRequest s with hsame | hsame
    · exact hsame
    · exact hsame.trans (flaky.cabinet.reads _ s)

end Flaky
end ReplicaClient
