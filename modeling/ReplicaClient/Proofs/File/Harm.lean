import ReplicaClient.Proofs.File.Failure

/-!
# What a failed write leaves behind

A write that fails should leave nothing that a caller could notice: the cursor and the size stay,
and whatever is done later comes out as if the write had not been tried.  So it is if the chunk
could not be fetched.  If the chunk could not be stored, it stays at hand as the write wanted it; if
the root could not be stored, the cursor stays where the write wanted it.
-/

namespace ReplicaClient

namespace Flat

/-- Every outcome is that of the vector or a failure, up to the next write that fails, which is a
matter of its own. -/
def Follows (c : Nat) : Flat → List (FileOp × FileOutcome) → Prop
  | _, [] => True
  | v, (op, outcome) :: rest => v.data.length < UInt64.size →
      match outcome with
      | .failed _ => (∃ buf, op = .write buf) ∨ Follows c v rest
      | outcome => outcome = (v.perform c op).1 ∧ Follows c (v.perform c op).2 rest

theorem perform_ne_failed (c : Nat) (v : Flat) (op : FileOp) (e : ClientError) :
    (v.perform c op).1 ≠ .failed e := by
  cases op with
  | seek m =>
      cases hseek : v.seek m <;> simp [perform, hseek]
  | _ => simp [perform]

variable {c : Nat} {v : Flat} {op : FileOp} {rest : List (FileOp × FileOutcome)}

theorem follows_cons
    (h : v.data.length < UInt64.size → Follows c (v.perform c op).2 rest) :
    Follows c v ((op, (v.perform c op).1) :: rest) := by
  have hne := v.perform_ne_failed c op
  intro hlength
  split
  next e heq => exact absurd heq (hne e)
  next => exact ⟨rfl, h hlength⟩

theorem follows_failed {e : ClientError} (h : (∀ buf, op ≠ .write buf) → Follows c v rest) :
    Follows c v ((op, .failed e) :: rest) := by
  intro _
  by_cases hwrite : ∃ buf, op = .write buf
  · exact Or.inl hwrite
  · exact Or.inr (h fun buf hbuf ↦ hwrite ⟨buf, hbuf⟩)

theorem Follows.head {outcome : FileOutcome} (h : Follows c v ((op, outcome) :: rest))
    (hlength : v.data.length < UInt64.size) (hdone : ∀ e, outcome ≠ .failed e) :
    outcome = (v.perform c op).1 ∧ Follows c (v.perform c op).2 rest := by
  have hboth := h hlength
  split at hboth
  next e => exact absurd rfl (hdone e)
  next => exact hboth

/-- A piece that does not change its window changes nothing. -/
theorem splice_eq_of_window {piece : Bytes} (hpos : v.pos ≤ v.data.length)
    (hpiece : v.pos % c + piece.length ≤ c)
    (h : window c (v.pos / c) (splice v.data v.pos piece) = window c (v.pos / c) v.data) :
    splice v.data v.pos piece = v.data := by
  have hsplit : v.pos / c * c + v.pos % c = v.pos := Nat.div_add_mod' v.pos c
  apply List.ext_getElem?
  intro p
  by_cases hinside : v.pos ≤ p ∧ p < v.pos + piece.length
  · have hwindow := congrArg (·[p - v.pos / c * c]?) h
    have hplace : v.pos / c * c + (p - v.pos / c * c) = p := by omega
    simp only [getElem?_window] at hwindow
    rwa [if_pos (by omega), if_pos (by omega), hplace] at hwindow
  · rw [getElem?_splice hpos]
    by_cases hbefore : p < v.pos
    · rw [if_pos hbefore]
    · rw [if_neg hbefore, if_neg (by omega)]

end Flat

namespace ChunkedFile

/-- A failed write has left nothing that a caller could find out, whatever the store does from now
on. -/
structure Unharmed (c : Nat) (v : Flat) (f : ChunkedFile) (held : Address → Option Content) :
    Prop where
  pos : f.pos = v.pos
  size : f.size = v.data.length
  inside : f.pos ≤ f.size
  follows : ∀ (τ : Type) (store : Flaky τ) (t : τ), store.held t = held → ∀ ops : List FileOp,
    v.Follows c (ops.zip ((f.performAll ops).run store.answer t).1.1)

/-- Of the requests of a write, the one that stops it may ask for the chunk.  It may store the chunk
only if the piece changes nothing or begins a chunk with one octet, and it may not store the root. -/
def Harmless (key : String) (c : Nat) (v : Flat) (piece : Bytes) : Option Request → Prop
  | none | some (.get _) => True
  | some (.put q) => q.key = some (Utf8.encode (chunkKey key (v.pos / c))) ∧
      (Flat.splice v.data v.pos piece = v.data ∨ v.data.length ≤ v.pos / c * c ∧ piece.length = 1)
  | some _ => False

/-- The first handle is the second one, or has begun a chunk with one octet besides.  The next write
to that chunk overwrites the octet. -/
def Like (f f₀ : ChunkedFile) : Prop :=
  f = f₀ ∨ f₀.chunk = none ∧ f₀.size % f₀.chunkSize = 0 ∧
    ∃ octet, f = { f₀ with
      chunk := some { f₀.newChunk (f₀.size / f₀.chunkSize) with data := [octet] } }

section Like

variable {f f₀ : ChunkedFile}

theorem Like.pos (h : f.Like f₀) : f.pos = f₀.pos := by
  rcases h with rfl | ⟨-, -, octet, rfl⟩ <;> rfl

theorem Like.size (h : f.Like f₀) : f.size = f₀.size := by
  rcases h with rfl | ⟨-, -, octet, rfl⟩ <;> rfl

theorem overwrite_singleton (octet : UInt8) {piece : Bytes} (hne : piece ≠ []) :
    overwrite [octet] 0 piece = piece := by
  cases piece with
  | nil => exact absurd rfl hne
  | cons b piece => simp [overwrite]

/-- The handles find the same chunks, except where there is none yet. -/
theorem chunkAt_stub {octet : UInt8} {i k : Nat} (hnone : f₀.chunk = none) (hne : i ≠ k)
    (make : Bool) :
    ({ f₀ with chunk := some { f₀.newChunk k with data := [octet] } } : ChunkedFile).chunkAt i
      make = f₀.chunkAt i make := by
  unfold chunkAt
  dsimp only [newChunk]
  rw [if_neg (fun hkey ↦ hne (chunkKey_inj.mp hkey).symm), hnone]

theorem chunkAt_stub_self {octet : UInt8} {k : Nat} :
    ({ f₀ with chunk := some { f₀.newChunk k with data := [octet] } } : ChunkedFile).chunkAt k
      true = .done (.ok { f₀.newChunk k with data := [octet] },
        { f₀ with chunk := some { f₀.newChunk k with data := [octet] } }) :=
  chunkAt_of_key_eq rfl rfl true

theorem chunkAt_new {k : Nat} (hnone : f₀.chunk = none) :
    f₀.chunkAt k true = .done (.ok (f₀.newChunk k), { f₀ with chunk := some (f₀.newChunk k) }) := by
  unfold chunkAt
  rw [hnone]
  rfl

/-- Past the chunks that there are, the handles write alike. -/
theorem Like.write (h : f.Like f₀) (hc : 0 < f₀.chunkSize) (hinside : f₀.pos ≤ f₀.size)
    {buf : Bytes} (hbuf : buf ≠ []) : f.write buf = f₀.write buf := by
  rcases h with rfl | ⟨hnone, hwhole, octet, rfl⟩
  · rfl
  have hempty : ¬buf.isEmpty = true := by rwa [List.isEmpty_iff]
  have hall : f₀.size / f₀.chunkSize * f₀.chunkSize = f₀.size :=
    Nat.div_mul_cancel (Nat.dvd_of_mod_eq_zero hwhole)
  unfold ChunkedFile.write
  rw [if_neg hempty, if_neg hempty]
  dsimp only
  by_cases hindex : f₀.pos / f₀.chunkSize = f₀.size / f₀.chunkSize
  · have hzero : f₀.pos % f₀.chunkSize = 0 := by
      have hsplit : f₀.pos / f₀.chunkSize * f₀.chunkSize + f₀.pos % f₀.chunkSize = f₀.pos :=
        Nat.div_add_mod' f₀.pos f₀.chunkSize
      rw [hindex, hall] at hsplit
      omega
    have hpiece : buf.take (f₀.chunkSize - 0) ≠ [] := by
      rw [Ne, List.take_eq_nil_iff, not_or]
      exact ⟨by omega, hbuf⟩
    rw [hindex, hzero, hall, decide_eq_true (Nat.le_refl f₀.size), chunkAt_stub_self,
      chunkAt_new hnone]
    dsimp only [Dialogue.bind, newChunk]
    rw [overwrite_singleton octet hpiece, overwrite_nil]
  · rw [chunkAt_stub hnone hindex]

theorem Like.read (h : f.Like f₀) (hinside : f₀.pos ≤ f₀.size) {n : Nat}
    (hmore : ¬(n = 0 ∨ f₀.size ≤ f₀.pos)) : f.read n = f₀.read n := by
  rcases h with rfl | ⟨hnone, hwhole, octet, rfl⟩
  · rfl
  have hall : f₀.size / f₀.chunkSize * f₀.chunkSize = f₀.size :=
    Nat.div_mul_cancel (Nat.dvd_of_mod_eq_zero hwhole)
  have hindex : f₀.pos / f₀.chunkSize ≠ f₀.size / f₀.chunkSize := by
    intro hindex
    have hbefore := Nat.div_mul_le_self f₀.pos f₀.chunkSize
    rw [hindex, hall] at hbefore
    omega
  unfold ChunkedFile.read
  rw [if_neg hmore]
  dsimp only
  rw [if_neg hmore, chunkAt_stub hnone hindex]

theorem Like.seek (h : f.Like f₀) (m : Seek) :
    (∃ e, f.seek m = .error e ∧ f₀.seek m = .error e) ∨
    ∃ f' f₀', f.seek m = .ok f' ∧ f₀.seek m = .ok f₀' ∧ f'.Like f₀' := by
  have htarget : m.target f = m.target f₀ := by
    cases m with
    | start offset => rfl
    | current offset => rw [Seek.target, Seek.target, h.pos]
    | fromEnd offset => rw [Seek.target, Seek.target, h.size]
  unfold ChunkedFile.seek
  rw [htarget, h.size]
  dsimp only
  split
  · right
    refine ⟨_, _, rfl, rfl, ?_⟩
    rcases h with rfl | ⟨hnone, hwhole, octet, rfl⟩
    · exact Or.inl rfl
    · exact Or.inr ⟨hnone, hwhole, octet, rfl⟩
  · exact Or.inl ⟨_, rfl, rfl⟩

/-- Handles that are alike come out alike of every operation, whatever the store does. -/
theorem Like.run_perform {σ : Type} (h : f.Like f₀) (hc : 0 < f₀.chunkSize)
    (hinside : f₀.pos ≤ f₀.size) (answer : (q : Request) → σ → Except ClientError q.Reply × σ)
    (s : σ) (op : FileOp) :
    ∃ outcome f' f₀' s', (f.perform op).run answer s = ((outcome, f'), s') ∧
      (f₀.perform op).run answer s = ((outcome, f₀'), s') ∧ f'.Like f₀' := by
  have same : f.perform op = f₀.perform op →
      ∃ outcome f' f₀' s', (f.perform op).run answer s = ((outcome, f'), s') ∧
        (f₀.perform op).run answer s = ((outcome, f₀'), s') ∧ f'.Like f₀' := by
    intro heq
    rw [heq]
    exact ⟨_, _, _, _, rfl, rfl, Or.inl rfl⟩
  cases op with
  | write buf =>
      by_cases hbuf : buf = []
      · subst hbuf
        exact ⟨.wrote 0, f, f₀, s, rfl, rfl, h⟩
      · apply same
        rw [ChunkedFile.perform, ChunkedFile.perform, h.write hc hinside hbuf]
  | read n =>
      by_cases hnone : n = 0 ∨ f₀.size ≤ f₀.pos
      · have hnone' : n = 0 ∨ f.size ≤ f.pos := by rwa [h.size, h.pos]
        rw [ChunkedFile.perform, ChunkedFile.perform, ChunkedFile.read, ChunkedFile.read,
          if_pos hnone, if_pos hnone']
        exact ⟨.got [], f, f₀, s, rfl, rfl, h⟩
      · apply same
        rw [ChunkedFile.perform, ChunkedFile.perform, h.read hinside hnone]
  | seek m =>
      rcases h.seek m with ⟨e, hf, hf₀⟩ | ⟨f', f₀', hf, hf₀, h'⟩
      · refine ⟨.outside e, f, f₀, s, ?_, ?_, h⟩ <;>
          simp only [ChunkedFile.perform, hf, hf₀, Dialogue.run]
      · refine ⟨.moved f'.pos, f', f₀', s, ?_, ?_, h'⟩ <;>
          simp only [ChunkedFile.perform, hf, hf₀, Dialogue.run, h'.pos]
  | reopen options =>
      have hroot : f.root = f₀.root := by rcases h with rfl | ⟨-, -, octet, rfl⟩ <;> rfl
      rw [ChunkedFile.perform, ChunkedFile.perform, hroot, Dialogue.run_bind, Dialogue.run_bind]
      rcases (openFile f₀.root.bucket f₀.root.key options).run answer s with ⟨e | f', s'⟩
      · exact ⟨.failed e, f, f₀, s', rfl, rfl, h⟩
      · exact ⟨.opened f'.size f'.pos, f', f', s', rfl, rfl, Or.inl rfl⟩

end Like

/-! ## Steps in a store that fails at times -/

section Steps

variable {σ : Type} {flaky : Flaky σ} {bucket key : String} {c : Nat} {s s' : σ}
  {f : ChunkedFile} {v : Flat}

/-- An operation comes out as with the vector, or fails.  Only a write that fails leaves anything
behind. -/
theorem Represents.perform_cases (h : Represents flaky.cabinet bucket key c s f v) (hkey : key ≠ "")
    (hc : validChunkSize c = true) (hlength : v.data.length < UInt64.size) (op : FileOp) :
    (∃ f' s', (f.perform op).run flaky.answer s = (((v.perform c op).1, f'), s') ∧
      Represents flaky.cabinet bucket key c s' f' (v.perform c op).2) ∨
    ∃ e f' s', (f.perform op).run flaky.answer s = ((.failed e, f'), s') ∧
      ((∀ buf, op ≠ .write buf) → Represents flaky.cabinet bucket key c s' f' v) := by
  have hpos : 0 < c := pos_of_validChunkSize hc
  cases op with
  | write buf =>
      by_cases hbuf : buf = []
      · subst hbuf
        left
        rw [Flat.perform, Flat.write_nil]
        exact ⟨f, s, rfl, h⟩
      rw [ChunkedFile.perform, Dialogue.run_bind, Flat.perform, Flat.write_eq]
      have hend := h.write_ends hkey hpos hbuf
      generalize (f.write buf).run flaky.answer s = result at hend ⊢
      generalize flaky.stop (f.write buf) s = stop at hend
      cases hend with
      | whole h' => exact Or.inl ⟨_, _, rfl, h'⟩
      | unfetched => exact Or.inr ⟨_, _, _, rfl, fun hnot ↦ absurd rfl (hnot buf)⟩
      | unstored => exact Or.inr ⟨_, _, _, rfl, fun hnot ↦ absurd rfl (hnot buf)⟩
      | untold => exact Or.inr ⟨_, _, _, rfl, fun hnot ↦ absurd rfl (hnot buf)⟩
  | read n =>
      rw [ChunkedFile.perform, Dialogue.run_bind]
      rcases h.read_cases hpos n with ⟨f', s', hrun, h'⟩ | ⟨e, f', s', hrun, h'⟩ <;> rw [hrun]
      · exact Or.inl ⟨f', s', rfl, h'⟩
      · exact Or.inr ⟨e, f', s', rfl, fun _ ↦ h'⟩
  | seek m =>
      obtain ⟨f', hdone, h'⟩ := h.perform_seek m
      rw [hdone]
      exact Or.inl ⟨f', s, rfl, h'⟩
  | reopen options =>
      rw [ChunkedFile.perform, h.handles.rooted.bucket, h.handles.rooted.key, Dialogue.run_bind]
      rcases open_cases h.rootHeld h.chunksHeld hc hlength options with
        ⟨f', s', hrun, h'⟩ | ⟨e, s', hrun, hsame⟩ <;> rw [hrun]
      · refine Or.inl ⟨f', s', ?_, h'⟩
        dsimp only [Dialogue.run]
        rw [h'.size, h'.pos]
        rfl
      · exact Or.inr ⟨e, f, s', rfl, fun _ ↦ h.of_held hsame⟩

/-- A handle that does as one which represents a vector. -/
structure Upholds (flaky : Flaky σ) (bucket key : String) (c : Nat) (s : σ) (f : ChunkedFile)
    (v : Flat) : Prop where
  valid : validChunkSize c = true
  named : key ≠ ""
  handle : ∃ f₀, Represents flaky.cabinet bucket key c s f₀ v ∧ f.Like f₀

theorem Upholds.perform_cases (h : Upholds flaky bucket key c s f v)
    (hlength : v.data.length < UInt64.size) (op : FileOp) :
    (∃ f' s', (f.perform op).run flaky.answer s = (((v.perform c op).1, f'), s') ∧
      Upholds flaky bucket key c s' f' (v.perform c op).2) ∨
    ∃ e f' s', (f.perform op).run flaky.answer s = ((.failed e, f'), s') ∧
      ((∀ buf, op ≠ .write buf) → Upholds flaky bucket key c s' f' v) := by
  obtain ⟨hc, hkey, f₀, hrep, hlike⟩ := h
  have hpos : 0 < f₀.chunkSize := by
    rw [hrep.handles.rooted.chunkSize]
    exact pos_of_validChunkSize hc
  have hinside : f₀.pos ≤ f₀.size := by
    rw [hrep.pos, hrep.size]
    exact hrep.inside
  obtain ⟨outcome, f', f₀', s', hrun, hrun₀, hlike'⟩ :=
    hlike.run_perform hpos hinside flaky.answer s op
  rcases hrep.perform_cases hkey hc hlength op with ⟨f₁, s₁, hdone, h₁⟩ | ⟨e, f₁, s₁, hdone, h₁⟩ <;>
    cases hrun₀.symm.trans hdone
  · exact Or.inl ⟨f', _, hrun, hc, hkey, f₀', h₁, hlike'⟩
  · exact Or.inr ⟨e, f', _, hrun, fun hnot ↦ ⟨hc, hkey, f₀', h₁ hnot, hlike'⟩⟩

theorem outcomes_cons {answer : (q : Request) → σ → Except ClientError q.Reply × σ} {op : FileOp}
    {outcome : FileOutcome} {f' : ChunkedFile}
    (h : (f.perform op).run answer s = ((outcome, f'), s')) (ops : List FileOp) :
    ((f.performAll (op :: ops)).run answer s).1.1 =
      outcome :: ((f'.performAll ops).run answer s').1.1 := by
  rw [performAll, Dialogue.run_bind, h]
  dsimp only
  rw [Dialogue.run_bind]
  rfl

/-- By induction on the operations: none but a write that fails ends what the handle upholds. -/
theorem Upholds.follows (h : Upholds flaky bucket key c s f v) (ops : List FileOp) :
    v.Follows c (ops.zip ((f.performAll ops).run flaky.answer s).1.1) := by
  induction ops generalizing s f v with
  | nil => trivial
  | cons op ops ih =>
      by_cases hlength : v.data.length < UInt64.size
      · rcases h.perform_cases hlength op with ⟨f', s', hrun, h'⟩ | ⟨e, f', s', hrun, h'⟩ <;>
          rw [outcomes_cons hrun, List.zip_cons_cons]
        · exact Flat.follows_cons fun _ ↦ ih h'
        · exact Flat.follows_failed fun hnot ↦ ih (h' hnot)
      · rcases hrun : (f.perform op).run flaky.answer s with ⟨⟨outcome, f'⟩, s'⟩
        rw [outcomes_cons hrun, List.zip_cons_cons]
        exact fun hless ↦ absurd hless hlength

theorem Upholds.unharmed (h : Upholds flaky bucket key c s f v) :
    Unharmed c v f (flaky.held s) := by
  obtain ⟨hc, hkey, f₀, hrep, hlike⟩ := h
  have hpos : f.pos = v.pos := hlike.pos.trans hrep.pos
  have hsize : f.size = v.data.length := hlike.size.trans hrep.size
  refine ⟨hpos, hsize, ?_, ?_⟩
  · rw [hpos, hsize]
    exact hrep.inside
  · intro τ store t hheld ops
    have hthere : Upholds store bucket key c t f v := ⟨hc, hkey, f₀, hrep.of_held hheld, hlike⟩
    exact hthere.follows ops

/-- A write that fails ends as it does for the handle that represents the vector. -/
theorem Upholds.write_failed (h : Upholds flaky bucket key c s f v) {buf : Bytes} {e : ClientError}
    {f' : ChunkedFile} (hrun : (f.write buf).run flaky.answer s = ((.error e, f'), s')) :
    ∃ f₀, Represents flaky.cabinet bucket key c s f₀ v ∧ buf.take (v.room c) ≠ [] ∧
      WriteEnd flaky bucket key c f₀ v s (buf.take (v.room c)) (flaky.stop (f.write buf) s)
        ((.error e, f'), s') := by
  obtain ⟨hc, hkey, f₀, hrep, hlike⟩ := h
  have hpos : 0 < c := pos_of_validChunkSize hc
  have hbuf : buf ≠ [] := by
    rintro rfl
    cases hrun
  have hsame : f.write buf = f₀.write buf := by
    apply hlike.write _ _ hbuf
    · rwa [hrep.handles.rooted.chunkSize]
    · rw [hrep.pos, hrep.size]
      exact hrep.inside
  refine ⟨f₀, hrep, Flat.take_room_ne_nil hpos hbuf, ?_⟩
  rw [← hrun, hsame]
  exact hrep.write_ends hkey hpos hbuf

/-- A chunk past the end is none of the vector's. -/
theorem ChunksHeld.of_splice {piece : Bytes}
    (h : ChunksHeld flaky.cabinet bucket key c s (Flat.splice v.data v.pos piece)) (hc : 0 < c)
    (hinside : v.pos ≤ v.data.length) (hpiece : v.pos % c + piece.length ≤ c)
    (hfresh : v.data.length ≤ v.pos / c * c) :
    ChunksHeld flaky.cabinet bucket key c s v.data := by
  intro i hi
  have hne : i ≠ v.pos / c := by
    rintro rfl
    rw [Flat.lt_chunkCount hc] at hi
    exact Nat.not_lt.mpr hfresh hi
  have hgrown : i < Flat.chunkCount c (Flat.splice v.data v.pos piece).length := by
    rw [Flat.lt_chunkCount hc] at hi ⊢
    rw [Flat.length_splice hinside]
    omega
  rw [← Flat.window_splice_of_ne hinside hpiece hne]
  exact h i hgrown

/-- A write that did no harm leaves a handle that upholds what it upheld before. -/
theorem Upholds.write_harmless (h : Upholds flaky bucket key c s f v) {buf : Bytes}
    {e : ClientError} {f' : ChunkedFile}
    (hrun : (f.write buf).run flaky.answer s = ((.error e, f'), s'))
    (hharm : Harmless key c v (buf.take (v.room c)) (flaky.stop (f.write buf) s)) :
    Upholds flaky bucket key c s' f' v := by
  have hpos : 0 < c := pos_of_validChunkSize h.valid
  have hpiece := Flat.length_take_room (v := v) hpos buf
  obtain ⟨f₀, hrep, hne, hend⟩ := h.write_failed hrun
  generalize flaky.stop (f.write buf) s = stop at hharm hend
  generalize buf.take (v.room c) = piece at hne hharm hend hpiece
  have hinside := hrep.inside
  have hsplit : v.pos / c * c + v.pos % c = v.pos := Nat.div_add_mod' v.pos c
  cases hend with
  | unfetched hstop hheld => exact ⟨h.valid, h.named, _, hrep.dropChunk hheld, Or.inl rfl⟩
  | unstored hkey hchunk hnew hroot hchunks =>
      obtain ⟨-, hsame | ⟨hfresh, hone⟩⟩ := hharm
      · have hlength : (Flat.splice v.data v.pos piece).length =
            max v.data.length (v.pos + piece.length) := Flat.length_splice hinside
        have hsome : 0 < piece.length := List.length_pos_iff.mpr hne
        have hi : v.pos / c < Flat.chunkCount c v.data.length := by
          rw [hsame] at hlength
          rw [Flat.lt_chunkCount hpos]
          omega
        rw [hsame] at hchunk hchunks
        have hrestored := hrep.restored hroot (or_self_iff.mp hchunks)
        refine ⟨h.valid, h.named, _, ?_, Or.inl rfl⟩
        exact { hrestored with handles := hrep.handles.rooted.withChunk hi hchunk }
      · obtain ⟨octet, rfl⟩ := List.length_eq_one_iff.mp hone
        have hfull : v.pos / c * c = v.data.length := by omega
        have hrestored := hrep.restored hroot
          (hchunks.elim id fun hgrown ↦ hgrown.of_splice hpos hinside hpiece hfresh)
        refine ⟨h.valid, h.named, _, hrestored.dropChunk rfl, Or.inr ⟨rfl, ?_, octet, ?_⟩⟩
        · dsimp only
          rw [hrep.size, hrep.handles.rooted.chunkSize, ← hfull, Nat.mul_mod_left]
        · dsimp only
          rw [hnew hfresh, hrep.size, hrep.handles.rooted.chunkSize, ← hfull,
            Nat.mul_div_cancel _ hpos]
          rfl
  | untold hkey hpast =>
      have hroot := hkey.symm.trans hharm.1
      exact absurd (Utf8.encode_injective (Option.some.inj hroot)).symm (chunkKey_ne key _)

/-- What a file has come to be: it was made or opened, and of the operations since then each one
succeeded or failed without harm. -/
inductive Reached (flaky : Flaky σ) (bucket key : String) (c : Nat) :
    σ → ChunkedFile → Flat → Prop where
  | made {contentType : String} {options : Options} {s s' : σ} {f : ChunkedFile}
      (hrun : (create bucket key contentType c options).run flaky.answer s = (.ok f, s')) :
      Reached flaky bucket key c s' f {}
  | opened {options : Options} {s s' : σ} {f : ChunkedFile} {data : Bytes} (hkey : key ≠ "")
      (hroot : RootHeld flaky.cabinet bucket key c s (Flat.chunkCount c data.length))
      (hchunks : ChunksHeld flaky.cabinet bucket key c s data) (hc : validChunkSize c = true)
      (hlength : data.length < UInt64.size)
      (hrun : (openFile bucket key options).run flaky.answer s = (.ok f, s')) :
      Reached flaky bucket key c s' f { data }
  | done {s s' : σ} {f f' : ChunkedFile} {v : Flat} {op : FileOp} {outcome : FileOutcome}
      (h : Reached flaky bucket key c s f v) (hlength : v.data.length < UInt64.size)
      (hrun : (f.perform op).run flaky.answer s = ((outcome, f'), s'))
      (hdone : ∀ e, outcome ≠ .failed e) :
      Reached flaky bucket key c s' f' (v.perform c op).2
  | failed {s s' : σ} {f f' : ChunkedFile} {v : Flat} {op : FileOp} {e : ClientError}
      (h : Reached flaky bucket key c s f v) (hlength : v.data.length < UInt64.size)
      (hrun : (f.perform op).run flaky.answer s = ((.failed e, f'), s'))
      (hharm : ∀ buf, op = .write buf →
        Harmless key c v (buf.take (v.room c)) (flaky.stop (f.write buf) s)) :
      Reached flaky bucket key c s' f' v

theorem Reached.upholds (h : Reached flaky bucket key c s f v) :
    Upholds flaky bucket key c s f v := by
  induction h with
  | made hrun =>
      obtain ⟨hc, hkey, hrep⟩ := Represents.of_create hrun
      exact ⟨hc, hkey, _, hrep, Or.inl rfl⟩
  | @opened options s s' f data hkey hroot hchunks hc hlength hrun =>
      rcases open_cases hroot hchunks hc hlength options with
        ⟨f₀, s₀, hopen, hrep⟩ | ⟨e, s₀, hopen, -⟩ <;> cases hrun.symm.trans hopen
      exact ⟨hc, hkey, f, hrep, Or.inl rfl⟩
  | @done s s' f f' v op outcome h hlength hrun hdone ih =>
      rcases ih.perform_cases hlength op with ⟨f₁, s₁, hrun₁, h₁⟩ | ⟨e, f₁, s₁, hrun₁, -⟩ <;>
        cases hrun.symm.trans hrun₁
      · exact h₁
      · exact absurd rfl (hdone e)
  | @failed s s' f f' v op e h hlength hrun hharm ih =>
      rcases ih.perform_cases hlength op with ⟨f₁, s₁, hrun₁, -⟩ | ⟨e, f₁, s₁, hrun₁, h₁⟩
      · have heq := congrArg (fun r ↦ r.1.1) (hrun.symm.trans hrun₁)
        exact absurd heq.symm (Flat.perform_ne_failed c v op e)
      · cases hrun.symm.trans hrun₁
        by_cases hwrite : ∃ buf, op = .write buf
        · obtain ⟨buf, rfl⟩ := hwrite
          rw [ChunkedFile.perform, Dialogue.run_bind] at hrun
          rcases hw : (f.write buf).run flaky.answer s with ⟨⟨e' | n, f₂⟩, s₂⟩ <;>
            rw [hw] at hrun <;> cases hrun
          exact ih.write_harmless hw (hharm buf rfl)
        · exact h₁ fun buf hbuf ↦ hwrite ⟨buf, hbuf⟩

/-! ## What a caller can find out -/

section Notice

variable {held : Address → Option Content} {chunk : Object} {i : Nat}

theorem follows_perform {answer : (q : Request) → σ → Except ClientError q.Reply × σ}
    {op : FileOp} {ops : List FileOp} {outcome : FileOutcome} {f' : ChunkedFile}
    (h : v.Follows c ((op :: ops).zip ((f.performAll (op :: ops)).run answer s).1.1))
    (hrun : (f.perform op).run answer s = ((outcome, f'), s'))
    (hlength : v.data.length < UInt64.size) (hdone : ∀ e, outcome ≠ .failed e) :
    outcome = (v.perform c op).1 ∧
      (v.perform c op).2.Follows c (ops.zip ((f'.performAll ops).run answer s').1.1) := by
  rw [outcomes_cons hrun, List.zip_cons_cons] at h
  exact h.head hlength hdone

/-- A chunk at hand is read without a request. -/
theorem read_at_hand (hchunk : f.chunk = some chunk)
    (hkey : chunk.key = chunkKey f.root.key (f.pos / f.chunkSize)) {n : Nat} (hn : n ≠ 0)
    (hmore : f.pos < f.size) :
    ∃ f', f.read n = .done (.ok ((chunk.data.drop (f.pos % f.chunkSize)).take n), f') := by
  unfold ChunkedFile.read
  rw [if_neg (by omega), chunkAt_of_key_eq hchunk hkey]
  exact ⟨_, rfl⟩

theorem seek_start {n : Nat} (h : n ≤ f.size) : f.seek (.start n) = .ok { f with pos := n } := by
  have hinside : 0 ≤ (Seek.start n).target f ∧ (Seek.start n).target f ≤ f.size :=
    ⟨Int.natCast_nonneg n, Int.ofNat_le.mpr h⟩
  rw [ChunkedFile.seek, if_pos hinside]
  rfl

theorem flat_seek_start {n : Nat} (h : n ≤ v.data.length) :
    v.perform c (.seek (.start n)) = (.moved n, { v with pos := n }) := by
  have hinside : 0 ≤ v.target (.start n) ∧ v.target (.start n) ≤ v.data.length :=
    ⟨Int.natCast_nonneg n, Int.ofNat_le.mpr h⟩
  rw [Flat.perform, Flat.seek, if_pos hinside]
  rfl

/-- Unless the chunk at hand holds its window, a seek to its beginning and a read tell. -/
theorem window_of_follows {answer : (q : Request) → σ → Except ClientError q.Reply × σ}
    (h : v.Follows c ([.seek (.start (i * c)), .read c].zip
      ((f.performAll [.seek (.start (i * c)), .read c]).run answer s).1.1))
    (hc : 0 < c) (hchunkSize : f.chunkSize = c) (hsize : f.size = v.data.length)
    (hchunk : f.chunk = some chunk) (hkey : chunk.key = chunkKey f.root.key i)
    (hi : i * c < v.data.length) (hlength : v.data.length < UInt64.size) :
    chunk.data.take c = Flat.window c i v.data := by
  have hindex : i * c / c = i := Nat.mul_div_cancel i hc
  have hseek : (f.perform (.seek (.start (i * c)))).run answer s =
      ((.moved (i * c), { f with pos := i * c }), s) := by
    rw [ChunkedFile.perform, seek_start (by omega)]
    rfl
  obtain ⟨-, hread⟩ := follows_perform h hseek hlength fun _ h ↦ FileOutcome.noConfusion h
  rw [flat_seek_start (Nat.le_of_lt hi)] at hread
  obtain ⟨f', hdone⟩ := read_at_hand (f := { f with pos := i * c }) (n := c) hchunk
    (by rw [hkey, hchunkSize, hindex]) (by omega) (by rw [hsize]; exact hi)
  have hgot : (({ f with pos := i * c } : ChunkedFile).perform (.read c)).run answer s =
      ((.got (chunk.data.take c), f'), s) := by
    rw [ChunkedFile.perform, hdone, hchunkSize, Nat.mul_mod_left]
    rfl
  obtain ⟨heq, -⟩ := follows_perform hread hgot hlength fun _ h ↦ FileOutcome.noConfusion h
  have hroom : ({ v with pos := i * c } : Flat).room c = c := by
    rw [Flat.room, Nat.mul_mod_left, Nat.sub_zero]
  rw [Flat.perform, Flat.read_eq, hroom, Nat.min_self] at heq
  exact FileOutcome.got.inj heq

/-- A chunk that the file does not have yet takes an octet and is stored, but keeps the octets that
come after it. -/
theorem write_next {count : Nat} (hrooted : Rooted bucket key c f count) (hkey : key ≠ "")
    (hc : 0 < c) {data : Bytes} (hchunk : f.chunk = some chunk)
    (his : IsChunk bucket key i data chunk) (hpos : f.pos = i * c) (hsize : f.size = i * c)
    (cabinet : Cabinet σ) (s : σ) :
    ∃ f' chunk' s', (f.perform (.write [0])).run cabinet.answer s = ((.wrote 1, f'), s') ∧
      f'.chunk = some chunk' ∧ chunk'.key = chunkKey f'.root.key i ∧
      chunk'.data = overwrite data 0 [0] ∧ f'.chunkSize = c ∧ f'.size = i * c + 1 := by
  have hindex : i * c / c = i := Nat.mul_div_cancel i hc
  have htake : ([0] : Bytes).take (c - 0) = [0] := List.take_of_length_le hc
  have hgrow : i * c < i * c + ([0] : Bytes).length := Nat.lt_add_one _
  have hat : f.chunkAt i true = .done (.ok chunk, f) :=
    chunkAt_of_key_eq hchunk (by rw [hrooted.key, his.key]) true
  obtain ⟨vclock, vtag, lastMod, lastModUsecs, s₁, hstore, -, -⟩ :=
    cabinet.run_store s (o := { chunk with data := overwrite chunk.data 0 [0] })
      (chunkKey_ne_empty key i) his.bucket his.untyped his.key
  let root : Object := { f.root with
    metadata := Assoc.insert chunkCountName (toString (i + 1)) f.root.metadata }
  obtain ⟨vclock', vtag', lastMod', lastModUsecs', s₂, htell, -, -⟩ :=
    cabinet.run_store s₁ (o := root) hkey hrooted.bucket hrooted.untyped hrooted.key
  let chunk' : Object := { chunk with
    data := overwrite chunk.data 0 [0], vclock := vclock, vtag := vtag, lastMod := lastMod,
    lastModUsecs := lastModUsecs }
  let root' : Object := { root with
    vclock := vclock', vtag := vtag', lastMod := lastMod', lastModUsecs := lastModUsecs' }
  refine ⟨{ f with root := root', chunk := some chunk', pos := i * c + 1, size := i * c + 1 },
    chunk', s₂, ?_, rfl, ?_, ?_, hrooted.chunkSize, rfl⟩
  · rw [perform, ChunkedFile.write, if_neg (by decide)]
    dsimp only
    rw [hrooted.chunkSize, hpos, hsize, hindex, Nat.mul_mod_left, htake,
      decide_eq_true (Nat.le_refl (i * c)), hat]
    dsimp only [Dialogue.bind]
    rw [Dialogue.run_bind, Dialogue.run_bind, hstore]
    unfold advance
    dsimp only
    rw [hpos, hsize, hrooted.chunkSize, if_pos hgrow, if_pos rfl, Dialogue.run_bind, htell]
    rfl
  · exact his.key.trans (congrArg (chunkKey · i) hrooted.key.symm)
  · exact congrArg (overwrite · 0 [0]) his.data

/-- A chunk that the file does not have yet shows as soon as the file has one octet of it. -/
theorem Unharmed.length_of_next {count : Nat} (h : Unharmed c v f held)
    (hrooted : Rooted bucket key c f count) (hkey : key ≠ "") (hc : 0 < c) {data : Bytes}
    (hchunk : f.chunk = some chunk) (his : IsChunk bucket key i data chunk)
    (hfits : data.length ≤ c) (hpos : v.pos = i * c) (hfull : v.data.length = i * c)
    (hlength : v.data.length + 1 < UInt64.size) : data.length ≤ 1 := by
  obtain ⟨f₁, chunk₁, t, hwrite, hchunk₁, hkey₁, hdata₁, hchunkSize₁, hsize₁⟩ :=
    write_next hrooted hkey hc hchunk his (h.pos.trans hpos) (h.size.trans hfull) .plain held
  have hall := h.follows _ (.reliable .plain) held rfl
    [.write [0], .seek (.start (i * c)), .read c]
  obtain ⟨-, hrest⟩ := follows_perform hall hwrite (by omega) fun _ h ↦ FileOutcome.noConfusion h
  have hzero : v.pos % c = 0 := by rw [hpos, Nat.mul_mod_left]
  have hindex : v.pos / c = i := by rw [hpos, Nat.mul_div_cancel i hc]
  have htake : ([0] : Bytes).take (v.room c) = [0] := by
    rw [Flat.room, hzero]
    exact List.take_of_length_le hc
  have hgrown : (Flat.splice v.data v.pos [0]).length = i * c + 1 := by
    rw [Flat.length_splice (by omega), hpos, hfull]
    exact Nat.max_eq_right (Nat.le_add_right _ 1)
  rw [Flat.perform, Flat.write_eq, htake] at hrest
  have hwindow := window_of_follows hrest hc hchunkSize₁ (hsize₁.trans hgrown.symm) hchunk₁ hkey₁
    (by rw [hgrown]; omega) (by rw [hgrown]; omega)
  have hone : (Flat.window c i (Flat.splice v.data v.pos [0])).length = 1 := by
    rw [Flat.length_window, hgrown]
    omega
  have hmore := congrArg List.length hwindow
  rw [hdata₁, hone, overwrite_eq_splice (Nat.zero_le _), List.length_take,
    Flat.length_splice (Nat.zero_le _), List.length_singleton] at hmore
  omega

end Notice

/-- A failed write of a file in a store that fails at times goes unnoticed if and only if it was
harmless. -/
theorem unharmed_iff {buf : Bytes} {e : ClientError} {f' : ChunkedFile}
    (h : Reached flaky bucket key c s f v)
    (hrun : (f.write buf).run flaky.answer s = ((.error e, f'), s'))
    (hlength : (v.write c buf).2.data.length < UInt64.size) :
    Unharmed c v f' (flaky.held s') ↔
      Harmless key c v (buf.take (v.room c)) (flaky.stop (f.write buf) s) := by
  refine ⟨fun hun ↦ ?_, fun hharm ↦ (h.upholds.write_harmless hrun hharm).unharmed⟩
  obtain ⟨f₀, hrep, hne, hend⟩ := h.upholds.write_failed hrun
  have hc : 0 < c := pos_of_validChunkSize h.upholds.valid
  have hpiece := Flat.length_take_room (v := v) hc buf
  rw [Flat.write_eq] at hlength
  dsimp only at hlength
  generalize flaky.stop (f.write buf) s = stop at hend ⊢
  generalize buf.take (v.room c) = piece at hne hend hlength hpiece ⊢
  cases hend with
  | unfetched hstop hheld =>
      cases stop with
      | none => trivial
      | some q =>
          obtain ⟨g, rfl⟩ := hstop q rfl
          trivial
  | unstored hkey hchunk hnew hroot hchunks =>
      have hinside := hrep.inside
      have hsome : 0 < piece.length := List.length_pos_iff.mpr hne
      have hgrown : (Flat.splice v.data v.pos piece).length =
          max v.data.length (v.pos + piece.length) := Flat.length_splice hinside
      have hsplit : v.pos / c * c + v.pos % c = v.pos := Nat.div_add_mod' v.pos c
      refine ⟨hkey, ?_⟩
      rcases Nat.lt_or_ge (v.pos / c * c) v.data.length with hold | hfresh
      · left
        have hwindow := window_of_follows (hun.follows _ (.reliable .plain) _ rfl _) hc
          hrep.handles.rooted.chunkSize hrep.size rfl
          (hchunk.key.trans (congrArg (chunkKey · (v.pos / c)) hrep.handles.rooted.key.symm)) hold
          (by omega)
        rw [hchunk.data, List.take_of_length_le] at hwindow
        · exact Flat.splice_eq_of_window hinside hpiece hwindow
        · rw [Flat.length_window]
          exact Nat.min_le_left _ _
      · refine Or.inr ⟨hfresh, ?_⟩
        have hfull : v.pos / c * c = v.data.length := by omega
        have hwindow : Flat.window c (v.pos / c) (Flat.splice v.data v.pos piece) = piece :=
          hchunk.data.symm.trans (congrArg Object.data (hnew hfresh))
        rw [hwindow] at hchunk
        have hle := hun.length_of_next { hrep.handles.rooted with } h.upholds.named hc rfl hchunk
          (by omega) (by omega) hfull.symm (by omega)
        omega
  | untold hkey hpast =>
      have hpos := hpast.symm.trans hun.pos
      have hsome : 0 < piece.length := List.length_pos_iff.mpr hne
      omega

end Steps

theorem unharmed_iff_refusing :
    ∃ s f f' s', Reached (Flaky.refusing [88, 89]) "files" "movie" 4 s f { data := [97, 98] } ∧
      (f.write [88, 89]).run (Flaky.refusing [88, 89]).answer s =
        ((.error .connectionClosed, f'), s') ∧
      (({ data := [97, 98] } : Flat).write 4 [88, 89]).2.data.length < UInt64.size ∧
      ¬Unharmed 4 { data := [97, 98] } f' ((Flaky.refusing [88, 89]).held s') := by
  have hmade : Reached (Flaky.refusing [88, 89]) "files" "movie" 4 _ _ {} :=
    .made (rfl : (create "files" "movie" "text/plain" 4 {}).run _ (fun _ ↦ none) = _)
  have hwrote := hmade.done (by decide) (rfl : (perform _ (.write [97, 98])).run _ _ = _)
    fun _ h ↦ FileOutcome.noConfusion h
  have hmoved := hwrote.done (by decide) (rfl : (perform _ (.seek (.start 0))).run _ _ = _)
    fun _ h ↦ FileOutcome.noConfusion h
  obtain ⟨s, f, hreached, f', s', hrun, hharm⟩ :
      ∃ s f, Reached (Flaky.refusing [88, 89]) "files" "movie" 4 s f { data := [97, 98] } ∧
        ∃ f' s', (f.write [88, 89]).run (Flaky.refusing [88, 89]).answer s =
            ((.error .connectionClosed, f'), s') ∧
          ¬Harmless "movie" 4 { data := [97, 98] } [88, 89]
            ((Flaky.refusing [88, 89]).stop (f.write [88, 89]) s) := by
    refine ⟨_, _, hmoved, _, _, rfl, ?_⟩
    rintro ⟨-, hsame | ⟨hfresh, -⟩⟩
    · exact absurd hsame (by decide)
    · exact absurd hfresh (by decide)
  have hlength : (({ data := [97, 98] } : Flat).write 4 [88, 89]).2.data.length < UInt64.size := by
    decide
  exact ⟨s, f, f', s', hreached, hrun, hlength,
    fun hun ↦ hharm ((unharmed_iff hreached hrun hlength).mp hun)⟩

end ChunkedFile
end ReplicaClient
