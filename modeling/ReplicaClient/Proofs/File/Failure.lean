import ReplicaClient.Proofs.File.Refinement
import ReplicaClient.Proofs.Object.Flaky

/-!
# Files in a store that fails at times

How reads, writes and openings end when any of their requests may fail.  A read or an opening that
fails does no more than drop the chunk at hand.  A write can fail in three places, and each leaves
the handle in another state.
-/

namespace ReplicaClient
namespace ChunkedFile

section Failure

variable {σ : Type} {flaky : Flaky σ} {bucket key : String} {c : Nat} {s s' : σ}
  {f : ChunkedFile} {data : Bytes} {v : Flat} {i : Nat}

/-! ## Chunks -/

/-- A chunk that cannot be fetched leaves the handle without one. -/
theorem Handles.fetch_cases (h : Handles bucket key c f data)
    (hheld : ChunksHeld flaky.cabinet bucket key c s data) (hc : 0 < c) {make : Bool}
    (hmake : make = true ↔ ¬i < Flat.chunkCount c data.length) :
    (∃ chunk s', flaky.stop (f.chunkAt i make) s = none ∧
      (f.chunkAt i make).run flaky.cabinet.answer s =
        ((.ok chunk, { f with chunk := some chunk }), s') ∧
      IsChunk bucket key i (Flat.window c i data) chunk ∧ (make = true → chunk = f.newChunk i) ∧
      flaky.held s' = flaky.held s) ∨
    ∃ e s', (∀ q, flaky.stop (f.chunkAt i make) s = some q → ∃ g, q = .get g) ∧
      (f.chunkAt i make).run flaky.answer s = ((.error e, { f with chunk := none }), s') ∧
      flaky.held s' = flaky.held s := by
  rcases h.chunkAt_cases hc hmake with ⟨chunk, heq, his, hnew⟩ | ⟨hi, heq⟩
  · rw [heq]
    exact Or.inl ⟨chunk, s, rfl, rfl, his, hnew, rfl⟩
  rw [heq]
  by_cases hbucket : bucket = ""
  · subst hbucket
    refine Or.inr ⟨.emptyBucketName, s, fun q hq ↦ ?_, rfl, rfl⟩
    cases (show none = some q from hq)
  rcases flaky.getFrom_cases hbucket (chunkKey key i) f.root.options s with
    hstop | ⟨e, q, s', hstop, hrun, hsame⟩
  · obtain ⟨content, hcontent, hvalue⟩ := hheld i hi
    obtain ⟨chunk, s', hrun, hb, ht, hk, hdata, -, hsame⟩ :=
      flaky.cabinet.run_getFrom s hbucket hcontent f.root.options
    refine Or.inl ⟨chunk, s', ?_, ?_, ⟨hb, ht, hk, hdata.trans hvalue⟩, ?_, hsame⟩
    · rw [Flaky.stop_bind_of_none hstop hrun]
      rfl
    · rw [Dialogue.run_bind, hrun]
      rfl
    · exact fun hnew ↦ absurd hi (hmake.mp hnew)
  · refine Or.inr ⟨e, s', ?_, ?_, hsame⟩
    · intro q' hq'
      rw [Flaky.stop_bind_of_some hstop] at hq'
      exact ⟨q, (Option.some.inj hq').symm⟩
    · rw [Dialogue.run_bind, hrun]
      rfl

/-- A store that holds the same vector is as good as the one before. -/
theorem Represents.restored (h : Represents flaky.cabinet bucket key c s f v)
    (hroot : RootHeld flaky.cabinet bucket key c s' (Flat.chunkCount c v.data.length))
    (hchunks : ChunksHeld flaky.cabinet bucket key c s' v.data) :
    Represents flaky.cabinet bucket key c s' f v :=
  { h with rootHeld := hroot, chunksHeld := hchunks }

/-- A handle without a chunk tells as much of the vector as any other. -/
theorem Represents.dropChunk (h : Represents flaky.cabinet bucket key c s f v)
    (hheld : flaky.held s' = flaky.held s) :
    Represents flaky.cabinet bucket key c s' { f with chunk := none } v :=
  { h.of_held hheld with
    handles := ⟨{ h.handles.rooted with }, fun _ hchunk ↦ nomatch hchunk⟩ }

/-! ## Reading, making and opening -/

theorem Represents.read_cases (h : Represents flaky.cabinet bucket key c s f v) (hc : 0 < c)
    (n : Nat) :
    (∃ f' s', (f.read n).run flaky.answer s = ((.ok (v.read c n).1, f'), s') ∧
      Represents flaky.cabinet bucket key c s' f' (v.read c n).2) ∨
    ∃ e f' s', (f.read n).run flaky.answer s = ((.error e, f'), s') ∧
      Represents flaky.cabinet bucket key c s' f' v := by
  by_cases hnone : n = 0 ∨ f.size ≤ f.pos
  · obtain ⟨hread, hsame⟩ := h.read_nothing hnone
    rw [hread, hsame]
    exact Or.inl ⟨f, s, rfl, h⟩
  · have hmore := h.chunk_of_more hc hnone
    rcases h.handles.fetch_cases h.chunksHeld hc (make_false hmore) with
      ⟨chunk, s', hstop, hrun, his, -, hsame⟩ | ⟨e, s', -, hrun, hsame⟩
    · left
      obtain ⟨f', hread, h'⟩ := h.read_of_chunkAt hc hnone
        ((Flaky.run_of_stop_eq_none hstop).trans hrun) his hsame
      exact ⟨f', s', hread, h'⟩
    · right
      have hindex : f.pos / f.chunkSize = v.pos / c := by rw [h.pos, h.handles.rooted.chunkSize]
      refine ⟨e, _, s', ?_, h.dropChunk hsame⟩
      rw [ChunkedFile.read, if_neg hnone, hindex]
      dsimp only
      rw [Dialogue.run_bind, hrun]
      rfl

/-- A file that can be made has a name and a chunk size that the store can tell. -/
theorem Represents.of_create {contentType : String} {options : Options}
    (hrun : (create bucket key contentType c options).run flaky.answer s = (.ok f, s')) :
    validChunkSize c = true ∧ key ≠ "" ∧ Represents flaky.cabinet bucket key c s' f {} := by
  by_cases hvalid : (validChunkSize c && !key.isEmpty) = true
  · obtain ⟨hc, hnamed⟩ := Bool.and_eq_true_iff.mp hvalid
    have hkey : key ≠ "" := by
      rwa [Bool.not_eq_true', String.isEmpty_eq_false_iff] at hnamed
    refine ⟨hc, hkey, ?_⟩
    obtain ⟨f₀, s₀, hcreate, h⟩ := run_create flaky.cabinet s bucket contentType options hkey hc
    unfold create at hrun hcreate
    rw [if_pos hvalid, Dialogue.run_bind] at hrun hcreate
    rcases flaky.store_cases (newRoot bucket key contentType c options) s with
      hstop | ⟨e, s₁, -, hfail, -⟩
    · rw [Flaky.run_of_stop_eq_none hstop] at hrun
      rcases hstore : (newRoot bucket key contentType c options).store.run flaky.cabinet.answer s
        with ⟨⟨e | u, root⟩, s₁⟩
      · rw [hstore] at hcreate
        cases hcreate
      · rw [hstore] at hrun hcreate
        cases hcreate
        cases hrun
        exact h
    · rw [hfail] at hrun
      cases hrun
  · rw [create, if_neg hvalid] at hrun
    cases hrun

/-- A file that the store holds is opened at its beginning, or nothing has changed. -/
theorem open_cases (hroot : RootHeld flaky.cabinet bucket key c s (Flat.chunkCount c data.length))
    (hchunks : ChunksHeld flaky.cabinet bucket key c s data) (hc : validChunkSize c = true)
    (hlength : data.length < UInt64.size) (options : Options) :
    (∃ f s', (openFile bucket key options).run flaky.answer s = (.ok f, s') ∧
      Represents flaky.cabinet bucket key c s' f { data, pos := 0 }) ∨
    ∃ e s', (openFile bucket key options).run flaky.answer s = (.error e, s') ∧
      flaky.held s' = flaky.held s := by
  by_cases hbucket : bucket = ""
  · subst hbucket
    exact Or.inr ⟨.emptyBucketName, s, rfl, rfl⟩
  by_cases hnone : flaky.stop (openFile bucket key options) s = none
  · left
    rw [Flaky.run_of_stop_eq_none hnone]
    exact run_openFile hroot hchunks hbucket hc hlength options
  right
  unfold openFile Dialogue.andThen at hnone ⊢
  rcases flaky.getFrom_cases hbucket key options s with hstop | ⟨e, q, s', -, hrun, hsame⟩
  case inr => exact ⟨e, s', by rw [Dialogue.run_bind, hrun]; rfl, hsame⟩
  obtain ⟨content, hcontent, -⟩ := id hroot
  obtain ⟨root, s₁, hrun, hb, -, -, -, -, hsame⟩ :=
    flaky.cabinet.run_getFrom s hbucket hcontent options
  rw [Flaky.stop_bind_of_none hstop hrun] at hnone
  rw [Dialogue.run_bind, (Flaky.run_of_stop_eq_none hstop).trans hrun]
  dsimp only at hnone ⊢
  cases hlayout : layout? root.metadata with
  | none =>
      rw [hlayout] at hnone
      exact absurd rfl hnone
  | some layout =>
      obtain ⟨chunkSize, chunkCount⟩ := layout
      rw [hlayout] at hnone
      dsimp only at hnone ⊢
      by_cases hzero : chunkCount = 0
      · rw [if_pos hzero] at hnone
        exact absurd rfl hnone
      rw [if_neg hzero] at hnone ⊢
      have hchunkAt := chunkAt_of_key_ne (f := { root, chunkSize }) (i := chunkCount - 1)
        (fun _ hchunk ↦ (Option.some_ne_none _ hchunk.symm).elim) false
      rw [if_neg Bool.false_ne_true, hb] at hchunkAt
      rw [hchunkAt, Dialogue.bind_assoc] at hnone ⊢
      rcases flaky.getFrom_cases hbucket (chunkKey root.key (chunkCount - 1)) root.options s₁ with
        hstop₁ | ⟨e, q, s', -, hrun₁, hsame₁⟩
      · rcases hrun₁ : (Store.getFrom bucket (chunkKey root.key (chunkCount - 1)) root.options).run
          flaky.cabinet.answer s₁ with ⟨e | chunk, s₂⟩ <;>
        · rw [Flaky.stop_bind_of_none hstop₁ hrun₁] at hnone
          exact absurd rfl hnone
      · refine ⟨e, s', ?_, hsame₁.trans hsame⟩
        rw [Dialogue.run_bind, hrun₁]
        rfl

/-! ## Writing -/

/-- How a write of a piece can end: as a whole, without the chunk, with a chunk that was not stored,
or with one that the root does not tell of.  The first request that failed, if any, says which. -/
inductive WriteEnd (flaky : Flaky σ) (bucket key : String) (c : Nat) (f : ChunkedFile) (v : Flat)
    (s : σ) (piece : Bytes) :
    Option Request → (Except ClientError Nat × ChunkedFile) × σ → Prop where
  | whole {f' : ChunkedFile} {s' : σ}
      (h : Represents flaky.cabinet bucket key c s' f'
        { data := Flat.splice v.data v.pos piece, pos := v.pos + piece.length }) :
      WriteEnd flaky bucket key c f v s piece none ((.ok piece.length, f'), s')
  | unfetched {stop : Option Request} {e : ClientError} {s' : σ}
      (hstop : ∀ q, stop = some q → ∃ g, q = .get g) (hheld : flaky.held s' = flaky.held s) :
      WriteEnd flaky bucket key c f v s piece stop ((.error e, { f with chunk := none }), s')
  | unstored {q : PutRequest} {e : ClientError} {chunk : Object} {s' : σ}
      (hkey : q.key = some (Utf8.encode (chunkKey key (v.pos / c))))
      (hchunk : IsChunk bucket key (v.pos / c)
        (Flat.window c (v.pos / c) (Flat.splice v.data v.pos piece)) chunk)
      (hnew : v.data.length ≤ v.pos / c * c →
        chunk = { f.newChunk (v.pos / c) with data := piece })
      (hroot : RootHeld flaky.cabinet bucket key c s' (Flat.chunkCount c v.data.length))
      (hchunks : ChunksHeld flaky.cabinet bucket key c s' v.data ∨
        ChunksHeld flaky.cabinet bucket key c s' (Flat.splice v.data v.pos piece)) :
      WriteEnd flaky bucket key c f v s piece (some (.put q))
        ((.error e, { f with chunk := some chunk }), s')
  | untold {q : PutRequest} {e : ClientError} {f' : ChunkedFile} {s' : σ}
      (hkey : q.key = some (Utf8.encode key)) (hpos : f'.pos = v.pos + piece.length) :
      WriteEnd flaky bucket key c f v s piece (some (.put q)) ((.error e, f'), s')

theorem key_putRequest {o : Object} (h : o.key ≠ "") :
    o.putRequest.key = some (Utf8.encode o.key) :=
  nonEmpty_of_ne (Utf8.encode_ne_nil h)

theorem overwrite_nil (piece : Bytes) : overwrite [] 0 piece = piece := by
  simp [overwrite]

theorem stop_advance_within (f : ChunkedFile) (index length : Nat) (s : σ) :
    flaky.stop (f.advance index length false) s = none := by
  unfold advance
  dsimp only
  split <;> rfl

/-- The last part of a write, once its chunk has been stored. -/
theorem Represents.advance_ends {s₀ : σ} (h : Represents flaky.cabinet bucket key c s f v)
    (hkey : key ≠ "") (hc : 0 < c) {piece : Bytes} (hpiece : v.pos % c + piece.length ≤ c)
    (hne : piece ≠ []) {chunk : Object}
    (hhalf : Halfway flaky.cabinet bucket key c s' v piece chunk) :
    WriteEnd flaky bucket key c f v s₀ piece
      (flaky.stop ({ f with chunk := some chunk }.advance (v.pos / c) piece.length
        (decide (v.data.length ≤ v.pos / c * c))) s')
      (({ f with chunk := some chunk }.advance (v.pos / c) piece.length
        (decide (v.data.length ≤ v.pos / c * c))).run flaky.answer s') := by
  rcases Nat.lt_or_ge (v.pos / c * c) v.data.length with hold | hfresh
  · rw [decide_eq_false (Nat.not_le.mpr hold), stop_advance_within]
    obtain ⟨f', hadvance, h'⟩ := h.run_advance_within hc hpiece hold hhalf
    rw [Flaky.run_of_stop_eq_none (stop_advance_within _ _ _ _), hadvance]
    exact .whole h'
  · rw [decide_eq_true hfresh]
    have hsplit : v.pos / c * c + v.pos % c = v.pos := Nat.div_add_mod' v.pos c
    have hsome : 0 < piece.length := List.length_pos_iff.mpr hne
    have hgrow : v.data.length < v.pos + piece.length := by omega
    let root : Object := { f.root with
      metadata := Assoc.insert chunkCountName (toString (v.pos / c + 1)) f.root.metadata }
    rcases flaky.store_cases root s' with hstop | ⟨e, s₁, hstop, hrun, -⟩
    · obtain ⟨f', s₁, hadvance, h'⟩ := h.run_advance_fresh hkey hpiece hne hfresh hhalf
      have hnone : flaky.stop ({ f with chunk := some chunk }.advance (v.pos / c) piece.length true)
          s' = none := by
        unfold advance
        dsimp only
        rw [h.pos, h.size, if_pos hgrow, if_pos rfl]
        rcases hrun : root.store.run flaky.cabinet.answer s' with ⟨⟨e | u, root'⟩, s₁⟩ <;>
          exact Flaky.stop_bind_of_none hstop hrun _
      rw [hnone, Flaky.run_of_stop_eq_none hnone, hadvance]
      exact .whole h'
    · unfold advance
      dsimp only
      rw [h.pos, h.size, if_pos hgrow, if_pos rfl, Flaky.stop_bind_of_some hstop,
        Dialogue.run_bind, hrun]
      refine .untold ?_ rfl
      rw [key_putRequest (by rw [h.handles.rooted.key]; exact hkey)]
      exact congrArg (some ∘ Utf8.encode) h.handles.rooted.key

theorem Represents.write_ends (h : Represents flaky.cabinet bucket key c s f v) (hkey : key ≠ "")
    (hc : 0 < c) {buf : Bytes} (hbuf : buf ≠ []) :
    WriteEnd flaky bucket key c f v s (buf.take (v.room c)) (flaky.stop (f.write buf) s)
      ((f.write buf).run flaky.answer s) := by
  have hpiece := Flat.length_take_room (v := v) hc buf
  have hne := Flat.take_room_ne_nil (v := v) hc hbuf
  generalize hp : buf.take (v.room c) = piece at hpiece hne ⊢
  have htake : buf.take (c - v.pos % c) = piece := hp
  have hmake : decide (v.data.length ≤ v.pos / c * c) = true ↔
      ¬v.pos / c < Flat.chunkCount c v.data.length := by
    rw [decide_eq_true_iff, Flat.lt_chunkCount hc, Nat.not_lt]
  rw [ChunkedFile.write, if_neg (by rwa [List.isEmpty_iff])]
  dsimp only
  rw [h.handles.rooted.chunkSize, h.pos, h.size]
  rcases h.handles.fetch_cases h.chunksHeld hc hmake with
    ⟨chunk, s₁, hstop, hrun, his, hnew, hsame⟩ | ⟨e, s₁, hget, hrun, hsame⟩
  case inr =>
    rw [Dialogue.run_bind, hrun]
    refine .unfetched (fun q hq ↦ ?_) hsame
    cases hstop : flaky.stop (f.chunkAt (v.pos / c) (decide (v.data.length ≤ v.pos / c * c))) s with
    | some q' =>
        rw [Flaky.stop_bind_of_some hstop] at hq
        exact hget q (hstop.trans hq)
    | none =>
        rw [Flaky.stop_bind_of_none hstop ((Flaky.run_of_stop_eq_none hstop).symm.trans hrun)] at hq
        cases (show none = some q from hq)
  rw [Dialogue.run_bind, (Flaky.run_of_stop_eq_none hstop).trans hrun,
    Flaky.stop_bind_of_none hstop hrun]
  dsimp only
  rw [htake]
  obtain ⟨chunk', s₂, hstore, hhalf⟩ := (h.of_held hsame).run_storeChunk hc hpiece his
  have hchunkKey : ({ chunk with data := overwrite chunk.data (v.pos % c) piece } : Object).key =
      chunkKey key (v.pos / c) := his.key
  rcases flaky.store_cases { chunk with data := overwrite chunk.data (v.pos % c) piece } s₁ with
    hstop₁ | ⟨e, s₃, hstop₁, hrun₁, hmoved⟩
  case inr =>
    rw [Dialogue.run_bind, hrun₁, Flaky.stop_bind_of_some hstop₁]
    have hold := h.of_held hsame
    have hheld : RootHeld flaky.cabinet bucket key c s₃ (Flat.chunkCount c v.data.length) ∧
        (ChunksHeld flaky.cabinet bucket key c s₃ v.data ∨
          ChunksHeld flaky.cabinet bucket key c s₃ (Flat.splice v.data v.pos piece)) := by
      rcases hmoved with hstays | hgoes
      · exact ⟨hold.rootHeld.of_held hstays, Or.inl (hold.chunksHeld.of_held hstays)⟩
      · rw [hstore] at hgoes
        exact ⟨hhalf.rootHeld.of_held hgoes, Or.inr (hhalf.chunksHeld.of_held hgoes)⟩
    refine .unstored ?_ ?_ ?_ hheld.1 hheld.2
    · rw [key_putRequest (by rw [hchunkKey]; exact chunkKey_ne_empty key _), hchunkKey]
    · exact ⟨his.bucket, his.untyped, his.key, h.overwrite_chunk hc hpiece his⟩
    · intro hfresh
      have hsplit : v.pos / c * c + v.pos % c = v.pos := Nat.div_add_mod' v.pos c
      have hinside := h.inside
      have hzero : v.pos % c = 0 := by omega
      rw [hnew (decide_eq_true hfresh), hzero]
      exact congrArg (fun data ↦ { f.newChunk (v.pos / c) with data }) (overwrite_nil piece)
  rw [Dialogue.run_bind, (Flaky.run_of_stop_eq_none hstop₁).trans hstore,
    Flaky.stop_bind_of_none hstop₁ hstore]
  exact h.advance_ends hkey hc hpiece hne hhalf

end Failure
end ChunkedFile
end ReplicaClient
