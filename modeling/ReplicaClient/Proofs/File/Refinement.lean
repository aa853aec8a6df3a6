import ReplicaClient.Proofs.File.Layout
import ReplicaClient.Proofs.Object.Cabinet

/-!
# Files refine vectors

In a store that keeps what was put last, a file comes out as a vector of octets with a cursor,
whatever is done with it and however often it is opened anew.  What carries this is that the root
tells the number of chunks, that each chunk holds its window of the vector, and that the chunk at
hand is one of these.
-/

namespace ReplicaClient
namespace ChunkedFile

/-! ## Handles -/

/-- A handle that cannot be opened anew is kept. -/
def perform (f : ChunkedFile) : FileOp → Dialogue (FileOutcome × ChunkedFile)
  | .write buf => (f.write buf).bind fun
      | (.ok n, f) => .done (.wrote n, f)
      | (.error e, f) => .done (.failed e, f)
  | .read n => (f.read n).bind fun
      | (.ok piece, f) => .done (.got piece, f)
      | (.error e, f) => .done (.failed e, f)
  | .seek s =>
      match f.seek s with
      | .ok f => .done (.moved f.pos, f)
      | .error e => .done (.outside e, f)
  | .reopen options => (openFile f.root.bucket f.root.key options).bind fun
      | .ok f => .done (.opened f.size f.pos, f)
      | .error e => .done (.failed e, f)

def performAll (f : ChunkedFile) : List FileOp → Dialogue (List FileOutcome × ChunkedFile)
  | [] => .done ([], f)
  | op :: ops => (f.perform op).bind fun (outcome, f) ↦
      (f.performAll ops).bind fun (outcomes, f) ↦ .done (outcome :: outcomes, f)

/-- A chunk as a file begins it. -/
def newChunk (f : ChunkedFile) (index : Nat) : Object :=
  { bucket := f.root.bucket, key := chunkKey f.root.key index, options := f.root.options,
    contentType := f.root.contentType }

section Refinement

variable {σ : Type} (cabinet : Cabinet σ) (bucket key : String) (c : Nat)

structure IsChunk (i : Nat) (data : Bytes) (chunk : Object) : Prop where
  bucket : chunk.bucket = bucket
  untyped : chunk.bucketType = none
  key : chunk.key = chunkKey key i
  data : chunk.data = data

/-- The store tells the number of chunks. -/
def RootHeld (s : σ) (count : Nat) : Prop :=
  ∃ content, cabinet.held s (.untyped bucket key) = some content ∧
    content.usermeta = (layoutOf c count).map fun (k, v) ↦ Pair.ofTexts k v

/-- The store holds each window of a vector. -/
def ChunksHeld (s : σ) (data : Bytes) : Prop :=
  ∀ i, i < Flat.chunkCount c data.length →
    ∃ content, cabinet.held s (.untyped bucket (chunkKey key i)) = some content ∧
      content.value = Flat.window c i data

/-- A handle knows its root. -/
structure Rooted (f : ChunkedFile) (count : Nat) : Prop where
  metadata : f.root.metadata = layoutOf c count
  chunkSize : f.chunkSize = c
  bucket : f.root.bucket = bucket
  untyped : f.root.bucketType = none
  key : f.root.key = key

/-- The chunk at hand, if any, holds one of the windows. -/
structure Handles (f : ChunkedFile) (data : Bytes) : Prop where
  rooted : Rooted bucket key c f (Flat.chunkCount c data.length)
  cached : ∀ chunk, f.chunk = some chunk → ∃ i, i < Flat.chunkCount c data.length ∧
    IsChunk bucket key i (Flat.window c i data) chunk

/-- The store and a handle hold a vector with a cursor. -/
structure Represents (s : σ) (f : ChunkedFile) (v : Flat) : Prop where
  rootHeld : RootHeld cabinet bucket key c s (Flat.chunkCount c v.data.length)
  chunksHeld : ChunksHeld cabinet bucket key c s v.data
  handles : Handles bucket key c f v.data
  pos : f.pos = v.pos
  size : f.size = v.data.length
  inside : v.pos ≤ v.data.length

/-- A write has stored its chunk, and the root does not tell of it yet. -/
structure Halfway (s : σ) (v : Flat) (piece : Bytes) (chunk : Object) : Prop where
  rootHeld : RootHeld cabinet bucket key c s (Flat.chunkCount c v.data.length)
  chunksHeld : ChunksHeld cabinet bucket key c s (Flat.splice v.data v.pos piece)
  isChunk : IsChunk bucket key (v.pos / c)
    (Flat.window c (v.pos / c) (Flat.splice v.data v.pos piece)) chunk

structure Mirrors (s : σ) (f : ChunkedFile) (v : Flat) : Prop where
  pos : f.pos = v.pos
  size : f.size = v.data.length
  inside : f.pos ≤ f.size
  told : layout? f.root.metadata = some (c, Flat.chunkCount c f.size)
  stored : ∃ content, cabinet.held s (.untyped bucket key) = some content ∧
    layout? (Assoc.ofList (content.usermeta.map Pair.texts)) = some (c, Flat.chunkCount c f.size)

/-- A new file can be made, and whatever is done with it then comes out as with an empty vector, as
long as the size is a machine word. -/
def Refines (contentType : String) (options : Options) (s : σ) : Prop :=
  ∃ f s', (create bucket key contentType c options).run cabinet.answer s = (.ok f, s') ∧
    ∀ ops outcomes v, Flat.performAll c {} ops = (outcomes, v) → v.data.length < UInt64.size →
      ∃ f' s'', (f.performAll ops).run cabinet.answer s' = ((outcomes, f'), s'') ∧
        Mirrors cabinet bucket key c s'' f' v

/-! ## Chunks -/

section Steps

variable {cabinet bucket key c} {s s' : σ} {f : ChunkedFile} {data : Bytes} {v : Flat} {i : Nat}

section Held

variable {τ : Type} {cabinet' : Cabinet τ} {t : τ}

theorem RootHeld.of_held {count : Nat} (h : RootHeld cabinet bucket key c s count)
    (hheld : cabinet'.held t = cabinet.held s) : RootHeld cabinet' bucket key c t count := by
  rw [RootHeld, hheld]
  exact h

theorem ChunksHeld.of_held (h : ChunksHeld cabinet bucket key c s data)
    (hheld : cabinet'.held t = cabinet.held s) : ChunksHeld cabinet' bucket key c t data := by
  rw [ChunksHeld, hheld]
  exact h

/-- Of a store only what it holds matters. -/
theorem Represents.of_held (h : Represents cabinet bucket key c s f v)
    (hheld : cabinet'.held t = cabinet.held s) : Represents cabinet' bucket key c t f v :=
  { h with
    rootHeld := h.rootHeld.of_held hheld
    chunksHeld := h.chunksHeld.of_held hheld }

end Held

theorem Rooted.withChunk (h : Rooted bucket key c f (Flat.chunkCount c data.length))
    {chunk : Object} (hi : i < Flat.chunkCount c data.length)
    (hchunk : IsChunk bucket key i (Flat.window c i data) chunk) :
    Handles bucket key c { f with chunk := some chunk } data where
  rooted := { h with }
  cached := by
    rintro chunk' ⟨⟩
    exact ⟨i, hi, hchunk⟩

theorem Rooted.chunkAt_of_ne {count : Nat} (h : Rooted bucket key c f count)
    (hne : ∀ chunk, f.chunk = some chunk → chunk.key ≠ chunkKey key i) (make : Bool) :
    f.chunkAt i make = if make then
        let chunk : Object :=
          { bucket, key := chunkKey key i, options := f.root.options,
            contentType := f.root.contentType }
        .done (.ok chunk, { f with chunk := some chunk })
      else
        (Store.getFrom bucket (chunkKey key i) f.root.options).bind fun
          | .error e => .done (.error e, { f with chunk := none })
          | .ok chunk => .done (.ok chunk, { f with chunk := some chunk }) := by
  rw [← h.key] at hne
  have hchunkAt := chunkAt_of_key_ne hne make
  rw [h.key, h.bucket] at hchunkAt
  exact hchunkAt

/-- A chunk that is at hand or new comes without a request, and any other one is fetched. -/
theorem Handles.chunkAt_cases (h : Handles bucket key c f data) (hc : 0 < c) {make : Bool}
    (hmake : make = true ↔ ¬i < Flat.chunkCount c data.length) :
    (∃ chunk, f.chunkAt i make = .done (.ok chunk, { f with chunk := some chunk }) ∧
      IsChunk bucket key i (Flat.window c i data) chunk ∧
      (make = true → chunk = f.newChunk i)) ∨
    (i < Flat.chunkCount c data.length ∧
      f.chunkAt i make = (Store.getFrom bucket (chunkKey key i) f.root.options).bind fun
        | .error e => .done (.error e, { f with chunk := none })
        | .ok chunk => .done (.ok chunk, { f with chunk := some chunk })) := by
  by_cases hhand : ∃ chunk, f.chunk = some chunk ∧ chunk.key = chunkKey key i
  · obtain ⟨chunk, hchunk, hkey⟩ := hhand
    obtain ⟨j, hj, his⟩ := h.cached chunk hchunk
    have hji : j = i := chunkKey_inj.mp (his.key.symm.trans hkey)
    subst hji
    refine Or.inl ⟨chunk, ?_, his, fun hnew ↦ absurd hj (hmake.mp hnew)⟩
    rw [chunkAt_of_key_eq hchunk (by rw [h.rooted.key, hkey]), ← hchunk]
  · have hne : ∀ chunk, f.chunk = some chunk → chunk.key ≠ chunkKey key i := by
      intro chunk hchunk hkey
      exact hhand ⟨chunk, hchunk, hkey⟩
    rw [h.rooted.chunkAt_of_ne hne]
    by_cases hi : i < Flat.chunkCount c data.length
    · refine Or.inr ⟨hi, if_neg ?_⟩
      rw [hmake]
      exact not_not_intro hi
    · have hnil : Flat.window c i data = [] := by
        apply Flat.window_eq_nil
        rw [Flat.lt_chunkCount hc] at hi
        exact Nat.not_lt.mp hi
      refine Or.inl ⟨f.newChunk i, ?_, ?_, fun _ ↦ rfl⟩
      · rw [if_pos (hmake.mpr hi), newChunk, h.rooted.bucket, h.rooted.key]
      · refine ⟨h.rooted.bucket, rfl, ?_, hnil.symm⟩
        rw [newChunk, h.rooted.key]

/-- The chunk at hand, the one in the store or a new one: each holds its window. -/
theorem Handles.run_chunkAt (h : Handles bucket key c f data)
    (hheld : ChunksHeld cabinet bucket key c s data) (hbucket : bucket ≠ "") (hc : 0 < c)
    {make : Bool} (hmake : make = true ↔ ¬i < Flat.chunkCount c data.length) :
    ∃ chunk s', (f.chunkAt i make).run cabinet.answer s =
        ((.ok chunk, { f with chunk := some chunk }), s') ∧
      IsChunk bucket key i (Flat.window c i data) chunk ∧ cabinet.held s' = cabinet.held s := by
  rcases h.chunkAt_cases hc hmake with ⟨chunk, heq, his, -⟩ | ⟨hi, heq⟩
  · refine ⟨chunk, s, ?_, his, rfl⟩
    rw [heq]
    rfl
  · obtain ⟨content, hcontent, hvalue⟩ := hheld i hi
    obtain ⟨chunk, s', hrun, hb, ht, hk, hdata, -, hsame⟩ :=
      cabinet.run_getFrom s hbucket hcontent f.root.options
    refine ⟨chunk, s', ?_, ⟨hb, ht, hk, hdata.trans hvalue⟩, hsame⟩
    rw [heq, Dialogue.run_bind, hrun]
    rfl

theorem make_false (hi : i < Flat.chunkCount c data.length) :
    false = true ↔ ¬i < Flat.chunkCount c data.length :=
  ⟨nofun, fun hnot ↦ absurd hi hnot⟩

/-! ## Reading and moving -/

/-- Nothing is asked for where nothing is wanted or left. -/
theorem Represents.read_nothing (h : Represents cabinet bucket key c s f v) {n : Nat}
    (hnone : n = 0 ∨ f.size ≤ f.pos) :
    f.read n = .done (.ok (v.read c n).1, f) ∧ (v.read c n).2 = v := by
  have hnil : (v.data.drop v.pos).take (min n (v.room c)) = [] := by
    rcases hnone with hzero | hend
    · rw [hzero, Nat.zero_min, List.take_zero]
    · rw [h.size, h.pos] at hend
      rw [List.drop_eq_nil_of_le hend, List.take_nil]
  rw [Flat.read_eq, hnil]
  exact ⟨if_pos hnone, rfl⟩

theorem Represents.chunk_of_more (h : Represents cabinet bucket key c s f v) (hc : 0 < c) {n : Nat}
    (hmore : ¬(n = 0 ∨ f.size ≤ f.pos)) : v.pos / c < Flat.chunkCount c v.data.length := by
  have hsplit : v.pos / c * c + v.pos % c = v.pos := Nat.div_add_mod' v.pos c
  rw [not_or, h.size, h.pos] at hmore
  rw [Flat.lt_chunkCount hc]
  omega

/-- A read takes what the chunk at the cursor has, wherever that chunk comes from. -/
theorem Represents.read_of_chunkAt {answer : (q : Request) → σ → Except ClientError q.Reply × σ}
    (h : Represents cabinet bucket key c s f v) (hc : 0 < c) {n : Nat}
    (hmore : ¬(n = 0 ∨ f.size ≤ f.pos)) {chunk : Object}
    (hrun : (f.chunkAt (v.pos / c) false).run answer s =
      ((.ok chunk, { f with chunk := some chunk }), s'))
    (his : IsChunk bucket key (v.pos / c) (Flat.window c (v.pos / c) v.data) chunk)
    (hsame : cabinet.held s' = cabinet.held s) :
    ∃ f', (f.read n).run answer s = ((.ok (v.read c n).1, f'), s') ∧
      Represents cabinet bucket key c s' f' (v.read c n).2 := by
  have hoffset : f.pos % f.chunkSize = v.pos % c := by rw [h.pos, h.handles.rooted.chunkSize]
  have hindex : f.pos / f.chunkSize = v.pos / c := by rw [h.pos, h.handles.rooted.chunkSize]
  have hpiece : (chunk.data.drop (v.pos % c)).take n =
      (v.data.drop v.pos).take (min n (v.room c)) := by
    rw [his.data, Flat.take_drop_window]
    rfl
  have hwithin : v.pos + ((v.data.drop v.pos).take (min n (v.room c))).length ≤ v.data.length := by
    rw [List.length_take, List.length_drop]
    have hinside := h.inside
    omega
  have hhandles := h.handles.rooted.withChunk (h.chunk_of_more hc hmore) his
  rw [Flat.read_eq]
  refine ⟨{ f with
    chunk := some chunk
    pos := v.pos + ((v.data.drop v.pos).take (min n (v.room c))).length }, ?_, ?_⟩
  · rw [ChunkedFile.read, if_neg hmore, hindex]
    dsimp only
    rw [Dialogue.run_bind, hrun]
    dsimp only [Dialogue.run]
    rw [hoffset, hpiece, h.pos]
  · exact {
      rootHeld := h.rootHeld.of_held hsame
      chunksHeld := h.chunksHeld.of_held hsame
      handles := ⟨{ hhandles.rooted with }, hhandles.cached⟩
      pos := rfl
      size := h.size
      inside := hwithin }

theorem Represents.run_read (h : Represents cabinet bucket key c s f v) (hbucket : bucket ≠ "")
    (hc : 0 < c) (n : Nat) :
    ∃ f' s', (f.read n).run cabinet.answer s = ((.ok (v.read c n).1, f'), s') ∧
      Represents cabinet bucket key c s' f' (v.read c n).2 := by
  by_cases hnone : n = 0 ∨ f.size ≤ f.pos
  · obtain ⟨hread, hsame⟩ := h.read_nothing hnone
    rw [hread, hsame]
    exact ⟨f, s, rfl, h⟩
  · have hmore := h.chunk_of_more hc hnone
    obtain ⟨chunk, s', hrun, his, hsame⟩ :=
      h.handles.run_chunkAt h.chunksHeld hbucket hc (make_false hmore)
    obtain ⟨f', hread, h'⟩ := h.read_of_chunkAt hc hnone hrun his hsame
    exact ⟨f', s', hread, h'⟩

theorem Represents.target_eq (h : Represents cabinet bucket key c s f v) (m : Seek) :
    m.target f = v.target m := by
  cases m with
  | start offset => rfl
  | current offset => rw [Seek.target, Flat.target, h.pos]
  | fromEnd offset => rw [Seek.target, Flat.target, h.size]

theorem Represents.seek (h : Represents cabinet bucket key c s f v) (m : Seek) :
    (∃ e, f.seek m = .error e ∧ v.seek m = .error e) ∨
    ∃ f' v', f.seek m = .ok f' ∧ v.seek m = .ok v' ∧ Represents cabinet bucket key c s f' v' := by
  unfold ChunkedFile.seek Flat.seek
  dsimp only
  rw [h.target_eq, h.size]
  by_cases hinside : 0 ≤ v.target m ∧ v.target m ≤ v.data.length
  · right
    rw [if_pos hinside, if_pos hinside]
    refine ⟨_, _, rfl, rfl, ?_⟩
    exact {
      rootHeld := h.rootHeld
      chunksHeld := h.chunksHeld
      handles := ⟨{ h.handles.rooted with }, h.handles.cached⟩
      pos := rfl
      size := rfl
      inside := Int.toNat_le.mpr hinside.2 }
  · left
    rw [if_neg hinside, if_neg hinside]
    exact ⟨_, rfl, rfl⟩

theorem Represents.perform_seek (h : Represents cabinet bucket key c s f v) (m : Seek) :
    ∃ f', f.perform (.seek m) = .done ((v.perform c (.seek m)).1, f') ∧
      Represents cabinet bucket key c s f' (v.perform c (.seek m)).2 := by
  rcases h.seek m with ⟨e, hfile, hflat⟩ | ⟨f', v', hfile, hflat, h'⟩
  · refine ⟨f, ?_, ?_⟩
    · simp only [perform, Flat.perform, hfile, hflat]
    · simp only [Flat.perform, hflat]
      exact h
  · refine ⟨f', ?_, ?_⟩
    · simp only [perform, Flat.perform, hfile, hflat, h'.pos]
    · simp only [Flat.perform, hflat]
      exact h'

/-! ## Writing -/

section Write

variable {piece : Bytes}

/-- Storing the chunk in which a piece lies leaves every chunk with its window. -/
theorem ChunksHeld.splice (h : ChunksHeld cabinet bucket key c s v.data) (hc : 0 < c)
    (hinside : v.pos ≤ v.data.length) (hpiece : v.pos % c + piece.length ≤ c) {content : Content}
    (hput : cabinet.held s' (.untyped bucket (chunkKey key (v.pos / c))) = some content)
    (hvalue : content.value = Flat.window c (v.pos / c) (Flat.splice v.data v.pos piece))
    (hother : ∀ place, place ≠ .untyped bucket (chunkKey key (v.pos / c)) →
      cabinet.held s' place = cabinet.held s place) :
    ChunksHeld cabinet bucket key c s' (Flat.splice v.data v.pos piece) := by
  intro i hi
  by_cases hindex : i = v.pos / c
  · subst hindex
    exact ⟨content, hput, hvalue⟩
  · have hplace : Address.untyped bucket (chunkKey key i) ≠
        .untyped bucket (chunkKey key (v.pos / c)) := by
      apply Address.untyped_ne
      intro heq
      exact hindex (chunkKey_inj.mp heq)
    rw [hother _ hplace, Flat.window_splice_of_ne hinside hpiece hindex]
    exact h i (Flat.lt_chunkCount_of_splice hc hinside hpiece hi hindex)

/-- A write that stays in the chunks that there are needs no other store. -/
theorem Represents.run_advance_within {s₀ : σ} (h : Represents cabinet bucket key c s₀ f v)
    (hc : 0 < c) (hpiece : v.pos % c + piece.length ≤ c) (hold : v.pos / c * c < v.data.length)
    {chunk : Object} (hhalf : Halfway cabinet bucket key c s v piece chunk) :
    ∃ f', ({ f with chunk := some chunk }.advance (v.pos / c) piece.length false).run
          cabinet.answer s = ((.ok piece.length, f'), s) ∧
      Represents cabinet bucket key c s f'
        { data := Flat.splice v.data v.pos piece, pos := v.pos + piece.length } := by
  have hlength : (Flat.splice v.data v.pos piece).length =
      max v.data.length (v.pos + piece.length) := Flat.length_splice h.inside
  have hcount := Flat.chunkCount_splice_of_lt h.inside hpiece hold
  have hindex : v.pos / c < Flat.chunkCount c (Flat.splice v.data v.pos piece).length := by
    rw [hcount, Flat.lt_chunkCount hc]
    exact hold
  have hrooted : Rooted bucket key c f
      (Flat.chunkCount c (Flat.splice v.data v.pos piece).length) := by
    rw [hcount]
    exact h.handles.rooted
  have hhandles := hrooted.withChunk hindex hhalf.isChunk
  refine ⟨{ f with
    chunk := some chunk
    pos := v.pos + piece.length
    size := (Flat.splice v.data v.pos piece).length }, ?_, ?_⟩
  · unfold advance
    dsimp only
    rw [h.pos, h.size, if_neg Bool.false_ne_true]
    by_cases hgrow : v.data.length < v.pos + piece.length
    · rw [if_pos hgrow, hlength, Nat.max_eq_right (Nat.le_of_lt hgrow)]
      rfl
    · rw [if_neg hgrow, hlength, Nat.max_eq_left (Nat.not_lt.mp hgrow)]
      rfl
  · exact {
      rootHeld := by
        rw [hcount]
        exact hhalf.rootHeld
      chunksHeld := hhalf.chunksHeld
      handles := ⟨{ hhandles.rooted with }, hhandles.cached⟩
      pos := rfl
      size := rfl
      inside := by
        rw [hlength]
        exact Nat.le_max_right _ _ }

/-- A write that begins a chunk tells of it in the root. -/
theorem Represents.run_advance_fresh {s₀ : σ} (h : Represents cabinet bucket key c s₀ f v)
    (hkey : key ≠ "") (hpiece : v.pos % c + piece.length ≤ c) (hne : piece ≠ [])
    (hnew : v.data.length ≤ v.pos / c * c) {chunk : Object}
    (hhalf : Halfway cabinet bucket key c s v piece chunk) :
    ∃ f' s', ({ f with chunk := some chunk }.advance (v.pos / c) piece.length true).run
          cabinet.answer s = ((.ok piece.length, f'), s') ∧
      Represents cabinet bucket key c s' f'
        { data := Flat.splice v.data v.pos piece, pos := v.pos + piece.length } := by
  have hsplit : v.pos / c * c + v.pos % c = v.pos := Nat.div_add_mod' v.pos c
  have hsome : 0 < piece.length := List.length_pos_iff.mpr hne
  have hgrow : v.data.length < v.pos + piece.length := by omega
  have hlength : (Flat.splice v.data v.pos piece).length = v.pos + piece.length := by
    rw [Flat.length_splice h.inside, Nat.max_eq_right (Nat.le_of_lt hgrow)]
  have hcount := Flat.chunkCount_splice_of_le h.inside hpiece hne hnew
  have hindex : v.pos / c < Flat.chunkCount c (Flat.splice v.data v.pos piece).length := by
    rw [hcount]
    exact Nat.lt_succ_self _
  let root : Object := { f.root with
    metadata := Assoc.insert chunkCountName (toString (v.pos / c + 1)) f.root.metadata }
  have hmetadata : root.metadata =
      layoutOf c (Flat.chunkCount c (Flat.splice v.data v.pos piece).length) := by
    rw [hcount, ← insert_chunkCount c (Flat.chunkCount c v.data.length),
      ← h.handles.rooted.metadata]
  obtain ⟨vclock, vtag, lastMod, lastModUsecs, s', hrun, hput, hother⟩ :=
    cabinet.run_store s (o := root) hkey h.handles.rooted.bucket h.handles.rooted.untyped
      h.handles.rooted.key
  let stored : Object := { root with
    vclock := vclock, vtag := vtag, lastMod := lastMod, lastModUsecs := lastModUsecs }
  have hrooted : Rooted bucket key c { f with root := stored }
      (Flat.chunkCount c (Flat.splice v.data v.pos piece).length) :=
    { h.handles.rooted with metadata := hmetadata }
  have hhandles := hrooted.withChunk hindex hhalf.isChunk
  refine ⟨{ f with
    root := stored
    chunk := some chunk
    pos := v.pos + piece.length
    size := v.pos + piece.length }, s', ?_, ?_⟩
  · unfold advance
    dsimp only
    rw [h.pos, h.size, if_pos hgrow, if_pos rfl, Dialogue.run_bind, hrun]
    rfl
  · exact {
      rootHeld := by
        refine ⟨root.toContent, hput, ?_⟩
        rw [← hmetadata]
        rfl
      -- No chunk lies where the root does.
      chunksHeld := by
        intro i hi
        rw [hother _ (Address.untyped_ne (chunkKey_ne key i) bucket)]
        exact hhalf.chunksHeld i hi
      handles := ⟨{ hhandles.rooted with }, hhandles.cached⟩
      pos := rfl
      size := hlength.symm
      inside := Nat.le_of_eq hlength.symm }

/-- A piece that is put into the chunk at the cursor makes it the window of the new vector. -/
theorem Represents.overwrite_chunk (h : Represents cabinet bucket key c s f v) (hc : 0 < c)
    (hpiece : v.pos % c + piece.length ≤ c) {chunk : Object}
    (his : IsChunk bucket key (v.pos / c) (Flat.window c (v.pos / c) v.data) chunk) :
    overwrite chunk.data (v.pos % c) piece =
      Flat.window c (v.pos / c) (Flat.splice v.data v.pos piece) := by
  have hsplit : v.pos / c * c + v.pos % c = v.pos := Nat.div_add_mod' v.pos c
  have hfits : v.pos % c ≤ (Flat.window c (v.pos / c) v.data).length := by
    have hinside := h.inside
    have hless := Nat.mod_lt v.pos hc
    rw [Flat.length_window]
    omega
  rw [his.data, overwrite_eq_splice hfits, Flat.window_splice h.inside hpiece]

/-- Storing the chunk at the cursor with the piece in it. -/
theorem Represents.run_storeChunk (h : Represents cabinet bucket key c s f v) (hc : 0 < c)
    (hpiece : v.pos % c + piece.length ≤ c) {chunk : Object}
    (his : IsChunk bucket key (v.pos / c) (Flat.window c (v.pos / c) v.data) chunk) :
    ∃ chunk' s', ({ chunk with data := overwrite chunk.data (v.pos % c) piece } : Object).store.run
          cabinet.answer s = ((.ok (), chunk'), s') ∧
      Halfway cabinet bucket key c s' v piece chunk' := by
  have hdata := h.overwrite_chunk hc hpiece his
  let written : Object := { chunk with data := overwrite chunk.data (v.pos % c) piece }
  obtain ⟨vclock, vtag, lastMod, lastModUsecs, s', hstore, hput, hother⟩ :=
    cabinet.run_store s (o := written) (chunkKey_ne_empty key _) his.bucket his.untyped his.key
  have hapart := (Address.untyped_ne (chunkKey_ne key (v.pos / c)) bucket).symm
  refine ⟨{ written with
    vclock := vclock, vtag := vtag, lastMod := lastMod, lastModUsecs := lastModUsecs }, s', hstore,
    ?_, ?_, ?_⟩
  · rw [RootHeld, hother _ hapart]
    exact h.rootHeld
  · exact h.chunksHeld.splice hc h.inside hpiece hput hdata hother
  · exact ⟨his.bucket, his.untyped, his.key, hdata⟩

theorem Represents.run_write (h : Represents cabinet bucket key c s f v) (hbucket : bucket ≠ "")
    (hkey : key ≠ "") (hc : 0 < c) (buf : Bytes) :
    ∃ f' s', (f.write buf).run cabinet.answer s = ((.ok (v.write c buf).1, f'), s') ∧
      Represents cabinet bucket key c s' f' (v.write c buf).2 := by
  by_cases hbuf : buf = []
  · subst hbuf
    rw [Flat.write_nil]
    exact ⟨f, s, rfl, h⟩
  · rw [Flat.write_eq]
    have hpiece := Flat.length_take_room (v := v) hc buf
    have hne := Flat.take_room_ne_nil (v := v) hc hbuf
    generalize hp : buf.take (v.room c) = piece at hpiece hne ⊢
    have htake : buf.take (c - v.pos % c) = piece := hp
    have hmake : decide (v.data.length ≤ v.pos / c * c) = true ↔
        ¬v.pos / c < Flat.chunkCount c v.data.length := by
      rw [decide_eq_true_iff, Flat.lt_chunkCount hc, Nat.not_lt]
    obtain ⟨chunk, s₁, hchunk, his, hsame⟩ :=
      h.handles.run_chunkAt h.chunksHeld hbucket hc hmake
    obtain ⟨chunk', s₂, hstore, hhalf⟩ := (h.of_held hsame).run_storeChunk hc hpiece his
    have hadvance : ∃ f' s', ({ f with chunk := some chunk' }.advance (v.pos / c) piece.length
          (decide (v.data.length ≤ v.pos / c * c))).run cabinet.answer s₂ =
          ((.ok piece.length, f'), s') ∧
        Represents cabinet bucket key c s' f'
          { data := Flat.splice v.data v.pos piece, pos := v.pos + piece.length } := by
      rcases Nat.lt_or_ge (v.pos / c * c) v.data.length with hold | hnew
      · rw [decide_eq_false (Nat.not_le.mpr hold)]
        obtain ⟨f', hrun, hafter⟩ := h.run_advance_within hc hpiece hold hhalf
        exact ⟨f', s₂, hrun, hafter⟩
      · rw [decide_eq_true hnew]
        exact h.run_advance_fresh hkey hpiece hne hnew hhalf
    obtain ⟨f', s', hrun, hafter⟩ := hadvance
    refine ⟨f', s', ?_, hafter⟩
    rw [ChunkedFile.write, if_neg (by rw [List.isEmpty_iff]; exact hbuf)]
    dsimp only
    rw [h.handles.rooted.chunkSize, h.pos, h.size, Dialogue.run_bind, hchunk]
    dsimp only
    rw [htake, Dialogue.run_bind, hstore]
    exact hrun

end Write

/-! ## Opening -/

/-- A file that the store holds can be opened, at its beginning. -/
theorem run_openFile (hroot : RootHeld cabinet bucket key c s (Flat.chunkCount c data.length))
    (hchunks : ChunksHeld cabinet bucket key c s data) (hbucket : bucket ≠ "")
    (hc : validChunkSize c = true) (hlength : data.length < UInt64.size) (options : Options) :
    ∃ f s', (openFile bucket key options).run cabinet.answer s = (.ok f, s') ∧
      Represents cabinet bucket key c s' f { data, pos := 0 } := by
  have hpos : 0 < c := pos_of_validChunkSize hc
  have hcount : Flat.chunkCount c data.length < UInt64.size :=
    Nat.lt_of_le_of_lt (Flat.chunkCount_le hpos) hlength
  obtain ⟨content, hheld, hmeta⟩ := id hroot
  obtain ⟨root, s₁, hrun, hb, ht, hk, -, hmetadata, hsame⟩ :=
    cabinet.run_getFrom s hbucket hheld options
  rw [hmeta, ofList_layoutOf] at hmetadata
  have hlayout : layout? root.metadata = some (c, Flat.chunkCount c data.length) := by
    rw [hmetadata]
    exact layout?_layoutOf hc hcount
  have hrooted : Rooted bucket key c { root, chunkSize := c } (Flat.chunkCount c data.length) :=
    ⟨hmetadata, rfl, hb, ht, hk⟩
  have hhandles : Handles bucket key c { root, chunkSize := c } data :=
    ⟨hrooted, fun _ hchunk ↦ (Option.some_ne_none _ hchunk.symm).elim⟩
  rw [openFile, Dialogue.andThen, Dialogue.run_bind, hrun]
  dsimp only
  rw [hlayout]
  dsimp only
  by_cases hempty : Flat.chunkCount c data.length = 0
  · have hnone : ¬0 * c < data.length := by
      rw [← Flat.lt_chunkCount hpos, hempty]
      exact Nat.lt_irrefl 0
    refine ⟨{ root, chunkSize := c }, s₁, ?_, ?_⟩
    · rw [if_pos hempty]
      rfl
    · exact {
        rootHeld := hroot.of_held hsame
        chunksHeld := hchunks.of_held hsame
        handles := hhandles
        pos := rfl
        size := by
          dsimp only
          omega
        inside := Nat.zero_le _ }
  · have hlast : Flat.chunkCount c data.length - 1 < Flat.chunkCount c data.length := by omega
    obtain ⟨chunk, s₂, hchunk, his, hsame'⟩ :=
      hhandles.run_chunkAt (hchunks.of_held hsame) hbucket hpos (make_false hlast)
    have hsize : (Flat.chunkCount c data.length - 1) * c + chunk.data.length = data.length := by
      have hbefore := (Flat.lt_chunkCount hpos).mp hlast
      have hafter : ¬Flat.chunkCount c data.length * c < data.length := by
        rw [← Flat.lt_chunkCount hpos]
        exact Nat.lt_irrefl _
      have hsucc : Flat.chunkCount c data.length * c =
          (Flat.chunkCount c data.length - 1) * c + c := by
        rw [← Nat.succ_mul, Nat.succ_eq_add_one, Nat.sub_add_cancel (by omega)]
      rw [his.data, Flat.length_window]
      omega
    have hhandles' := hrooted.withChunk hlast his
    refine ⟨{ root, chunkSize := c, chunk := some chunk, size := data.length }, s₂, ?_, ?_⟩
    · rw [if_neg hempty, Dialogue.run_bind, hchunk]
      dsimp only [Dialogue.run]
      rw [hsize, Nat.mod_eq_of_lt hlength]
    · exact {
        rootHeld := hroot.of_held (hsame'.trans hsame)
        chunksHeld := hchunks.of_held (hsame'.trans hsame)
        handles := ⟨{ hhandles'.rooted with }, hhandles'.cached⟩
        pos := rfl
        size := rfl
        inside := Nat.zero_le _ }

/-- A new file is empty.  Its bucket need not have a name. -/
theorem run_create (cabinet : Cabinet σ) (s : σ) (bucket contentType : String) (options : Options)
    (hkey : key ≠ "") (hc : validChunkSize c = true) :
    ∃ f s', (create bucket key contentType c options).run cabinet.answer s = (.ok f, s') ∧
      Represents cabinet bucket key c s' f {} := by
  have hpos : 0 < c := pos_of_validChunkSize hc
  have hzero : Flat.chunkCount c ([] : Bytes).length = 0 := Flat.chunkCount_zero hpos
  have hvalid : (validChunkSize c && !key.isEmpty) = true := by
    rw [hc, Bool.true_and, Bool.not_eq_true', String.isEmpty_eq_false_iff]
    exact hkey
  obtain ⟨vclock, vtag, lastMod, lastModUsecs, s', hrun, hput, -⟩ :=
    cabinet.run_store s (o := newRoot bucket key contentType c options) hkey rfl rfl rfl
  let root : Object := { newRoot bucket key contentType c options with
    vclock := vclock, vtag := vtag, lastMod := lastMod, lastModUsecs := lastModUsecs }
  have hmetadata : root.metadata = layoutOf c 0 := metadata_newRoot c bucket key contentType options
  refine ⟨{ root, chunkSize := c }, s', ?_, ?_⟩
  · rw [create, if_pos hvalid, Dialogue.run_bind, hrun]
    rfl
  · exact {
      rootHeld := by
        refine ⟨_, hput, ?_⟩
        rw [hzero, ← hmetadata]
        rfl
      chunksHeld := by
        intro i hi
        rw [hzero] at hi
        exact absurd hi (Nat.not_lt_zero i)
      handles := by
        constructor
        · rw [hzero]
          exact ⟨hmetadata, rfl, rfl, rfl, rfl⟩
        · intro chunk hchunk
          cases hchunk
      pos := rfl
      size := rfl
      inside := Nat.zero_le _ }

/-! ## Runs -/

theorem Represents.run_perform (h : Represents cabinet bucket key c s f v) (hbucket : bucket ≠ "")
    (hkey : key ≠ "") (hc : validChunkSize c = true) (hlength : v.data.length < UInt64.size)
    (op : FileOp) :
    ∃ f' s', (f.perform op).run cabinet.answer s = (((v.perform c op).1, f'), s') ∧
      Represents cabinet bucket key c s' f' (v.perform c op).2 := by
  have hpos : 0 < c := pos_of_validChunkSize hc
  cases op with
  | write buf =>
      obtain ⟨f', s', hrun, h'⟩ := h.run_write hbucket hkey hpos buf
      refine ⟨f', s', ?_, h'⟩
      rw [perform, Dialogue.run_bind, hrun]
      rfl
  | read n =>
      obtain ⟨f', s', hrun, h'⟩ := h.run_read hbucket hpos n
      refine ⟨f', s', ?_, h'⟩
      rw [perform, Dialogue.run_bind, hrun]
      rfl
  | seek m =>
      obtain ⟨f', hdone, h'⟩ := h.perform_seek m
      rw [hdone]
      exact ⟨f', s, rfl, h'⟩
  | reopen options =>
      obtain ⟨f', s', hrun, h'⟩ :=
        run_openFile h.rootHeld h.chunksHeld hbucket hc hlength options
      refine ⟨f', s', ?_, h'⟩
      rw [perform, h.handles.rooted.bucket, h.handles.rooted.key, Dialogue.run_bind, hrun]
      dsimp only [Dialogue.run]
      rw [h'.size, h'.pos]
      rfl

/-- By induction on the operations: each step keeps the vector represented, and no later vector is
shorter, so that the bound on the last one is a bound on all of them. -/
theorem Represents.run_performAll (h : Represents cabinet bucket key c s f v)
    (hbucket : bucket ≠ "") (hkey : key ≠ "") (hc : validChunkSize c = true) (ops : List FileOp)
    (hlength : (v.performAll c ops).2.data.length < UInt64.size) :
    ∃ f' s', (f.performAll ops).run cabinet.answer s = (((v.performAll c ops).1, f'), s') ∧
      Represents cabinet bucket key c s' f' (v.performAll c ops).2 := by
  induction ops generalizing s f v with
  | nil => exact ⟨f, s, rfl, h⟩
  | cons op ops ih =>
      have hnext : (v.perform c op).2.data.length < UInt64.size :=
        Nat.lt_of_le_of_lt (Flat.length_le_performAll _ ops) hlength
      have hnow : v.data.length < UInt64.size :=
        Nat.lt_of_le_of_lt (Flat.length_le_perform op) hnext
      obtain ⟨f₁, s₁, hrun, h₁⟩ := h.run_perform hbucket hkey hc hnow op
      obtain ⟨f₂, s₂, hruns, h₂⟩ := ih h₁ hlength
      refine ⟨f₂, s₂, ?_, h₂⟩
      rw [performAll, Dialogue.run_bind, hrun]
      dsimp only
      rw [Dialogue.run_bind, hruns]
      rfl

theorem Represents.mirrors (h : Represents cabinet bucket key c s f v)
    (hc : validChunkSize c = true) (hlength : v.data.length < UInt64.size) :
    Mirrors cabinet bucket key c s f v := by
  have hpos : 0 < c := pos_of_validChunkSize hc
  have hlayout := layout?_layoutOf hc
    (Nat.lt_of_le_of_lt (Flat.chunkCount_le hpos) hlength)
  constructor
  · exact h.pos
  · exact h.size
  · rw [h.pos, h.size]
    exact h.inside
  · rw [h.handles.rooted.metadata, h.size]
    exact hlayout
  · obtain ⟨content, hheld, hmeta⟩ := h.rootHeld
    refine ⟨content, hheld, ?_⟩
    rw [hmeta, ofList_layoutOf, h.size]
    exact hlayout

end Steps

/-- A bucket without a name is refused when a file is opened, but not when it is made. -/
theorem openFile_unnamed (options : Options) :
    openFile "" key options = .refuse .emptyBucketName :=
  rfl

/-- Files are vectors with a cursor in every bucket that has a name.  In the one that has none a file
can be made and not be opened. -/
theorem refines_iff (contentType : String) (options : Options) (s : σ)
    (hc : validChunkSize c = true) (hkey : key ≠ "") :
    Refines cabinet bucket key c contentType options s ↔ bucket ≠ "" := by
  obtain ⟨f, s', hcreate, h⟩ := run_create cabinet s bucket contentType options hkey hc
  constructor
  · rintro ⟨f₀, s₀, hcreate₀, hall⟩ rfl
    rw [hcreate] at hcreate₀
    cases hcreate₀
    -- The name is not checked before the root is stored, only when it is to be read again.
    obtain ⟨f', s'', hrun, -⟩ := hall [.reopen {}] [.opened 0 0] {} rfl (by decide)
    rw [performAll, perform, h.handles.rooted.bucket, openFile_unnamed] at hrun
    cases hrun
  · intro hbucket
    refine ⟨f, s', hcreate, ?_⟩
    rintro ops outcomes v hops hlength
    have hv : (Flat.performAll c {} ops).2 = v := congrArg Prod.snd hops
    subst hv
    obtain ⟨f', s'', hrun, h'⟩ := h.run_performAll hbucket hkey hc ops hlength
    rw [hops] at hrun
    exact ⟨f', s'', hrun, h'.mirrors hc hlength⟩

end Refinement

theorem refines_iff_plain :
    Refines Cabinet.plain "files" "movie" 4 "text/plain" {} (fun _ ↦ none) ∧
      ¬Refines Cabinet.plain "" "movie" 4 "text/plain" {} (fun _ ↦ none) := by
  constructor
  · apply (refines_iff Cabinet.plain "files" "movie" 4 "text/plain" {} _ (by decide) (by decide)).mpr
    decide
  · intro h
    exact (refines_iff Cabinet.plain "" "movie" 4 "text/plain" {} _ (by decide) (by decide)).mp h rfl

end ChunkedFile
end ReplicaClient
