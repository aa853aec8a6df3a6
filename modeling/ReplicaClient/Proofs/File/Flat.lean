import ReplicaClient.ChunkedFile

/-!
# Files as vectors

What a caller means by a file is a vector of octets with a cursor.  The chunks of a file are the
windows of that vector, all of one width except that the last one may be shorter.
-/

namespace ReplicaClient

structure Flat where
  data : Bytes := []
  pos : Nat := 0
  deriving DecidableEq, Repr

namespace Flat

/-- Puts a piece over the data at a place, and past their end where the piece is longer. -/
def splice (data : Bytes) (pos : Nat) (piece : Bytes) : Bytes :=
  data.take pos ++ piece ++ data.drop (pos + piece.length)

/-- The octets that a chunk holds. -/
def window (c i : Nat) (data : Bytes) : Bytes :=
  (data.drop (i * c)).take c

/-- The number of chunks: the quotient of the size, rounded up. -/
def chunkCount (c size : Nat) : Nat :=
  (size + c - 1) / c

/-! ## Windows -/

section Windows

variable {c i j pos : Nat} {data piece : Bytes}

theorem length_splice (h : pos ≤ data.length) :
    (splice data pos piece).length = max data.length (pos + piece.length) := by
  rw [splice, List.length_append, List.length_append, List.length_take, List.length_drop]
  omega

theorem getElem?_splice (h : pos ≤ data.length) (p : Nat) :
    (splice data pos piece)[p]? =
      if p < pos then data[p]?
      else if p < pos + piece.length then piece[p - pos]?
      else data[p]? := by
  have htake : (data.take pos).length = pos := List.length_take_of_le h
  unfold splice
  by_cases hbefore : p < pos
  · rw [if_pos hbefore, List.append_assoc, List.getElem?_append_left (by omega),
      List.getElem?_take_of_lt hbefore]
  · rw [if_neg hbefore]
    by_cases hinside : p < pos + piece.length
    · rw [if_pos hinside, List.append_assoc, List.getElem?_append_right (by omega),
        List.getElem?_append_left (by omega), htake]
    · have hrest : pos + piece.length + (p - (pos + piece.length)) = p := by omega
      rw [if_neg hinside, List.getElem?_append_right (by rw [List.length_append]; omega),
        List.getElem?_drop, List.length_append, htake, hrest]

theorem getElem?_window (p : Nat) :
    (window c i data)[p]? = if p < c then data[i * c + p]? else none := by
  rw [window, List.getElem?_take]
  split
  · rw [List.getElem?_drop]
  · rfl

theorem length_window : (window c i data).length = min c (data.length - i * c) := by
  rw [window, List.length_take, List.length_drop]

theorem window_eq_nil (h : data.length ≤ i * c) : window c i data = [] := by
  rw [window, List.drop_eq_nil_of_le h, List.take_nil]

/-- A piece that stays in one window changes that window, in the same way. -/
theorem window_splice (hpos : pos ≤ data.length) (hpiece : pos % c + piece.length ≤ c) :
    window c (pos / c) (splice data pos piece) = splice (window c (pos / c) data) (pos % c) piece := by
  have hsplit : pos / c * c + pos % c = pos := Nat.div_add_mod' pos c
  have hoffset : pos % c ≤ (window c (pos / c) data).length := by
    rw [length_window]
    omega
  apply List.ext_getElem?
  intro p
  rw [getElem?_window, getElem?_splice hpos, getElem?_splice hoffset, getElem?_window]
  generalize pos / c * c = start at hsplit ⊢
  by_cases hp : p < c
  · rw [if_pos hp, if_pos hp]
    by_cases hbefore : p < pos % c
    · rw [if_pos hbefore, if_pos (by omega)]
    · rw [if_neg hbefore, if_neg (by omega)]
      by_cases hinside : p < pos % c + piece.length
      · have hshift : start + p - pos = p - pos % c := by omega
        rw [if_pos hinside, if_pos (by omega), hshift]
      · rw [if_neg hinside, if_neg (by omega)]
  · rw [if_neg hp, if_neg (by omega), if_neg (by omega), if_neg hp]

/-- All other windows stay as they are. -/
theorem window_splice_of_ne (hpos : pos ≤ data.length) (hpiece : pos % c + piece.length ≤ c)
    (hne : i ≠ pos / c) : window c i (splice data pos piece) = window c i data := by
  have hsplit : pos / c * c + pos % c = pos := Nat.div_add_mod' pos c
  apply List.ext_getElem?
  intro p
  rw [getElem?_window, getElem?_window]
  by_cases hp : p < c
  · rw [if_pos hp, if_pos hp, getElem?_splice hpos]
    rcases Nat.lt_or_gt_of_ne hne with hless | hmore
    · have hnext : (i + 1) * c ≤ pos / c * c := Nat.mul_le_mul_right c hless
      rw [Nat.succ_mul] at hnext
      rw [if_pos (by omega)]
    · have hnext : (pos / c + 1) * c ≤ i * c := Nat.mul_le_mul_right c hmore
      rw [Nat.succ_mul] at hnext
      rw [if_neg (by omega), if_neg (by omega)]
  · rw [if_neg hp, if_neg hp]

/-- There are as many chunks as windows that are not empty. -/
theorem lt_chunkCount {size : Nat} (hc : 0 < c) : i < chunkCount c size ↔ i * c < size := by
  rw [chunkCount, Nat.lt_div_iff_mul_lt hc]
  omega

theorem chunkCount_zero (hc : 0 < c) : chunkCount c 0 = 0 := by
  rw [← Nat.le_zero_eq, ← Nat.not_lt, lt_chunkCount hc]
  exact Nat.not_lt_zero _

theorem chunkCount_eq_succ {size : Nat} (hlow : i * c < size) (hhigh : size ≤ (i + 1) * c) :
    chunkCount c size = i + 1 := by
  have hc : 0 < c := by
    apply Nat.pos_of_ne_zero
    rintro rfl
    omega
  apply Nat.le_antisymm
  · rw [← Nat.not_lt, lt_chunkCount hc]
    exact Nat.not_lt.mpr hhigh
  · exact (lt_chunkCount hc).mpr hlow

/-- A piece adds the chunk it lies in, if any. -/
theorem lt_chunkCount_of_splice (hc : 0 < c) (hpos : pos ≤ data.length)
    (hpiece : pos % c + piece.length ≤ c)
    (hi : i < chunkCount c (splice data pos piece).length) (hne : i ≠ pos / c) :
    i < chunkCount c data.length := by
  have hsplit : pos / c * c + pos % c = pos := Nat.div_add_mod' pos c
  rw [lt_chunkCount hc, length_splice hpos] at hi
  rw [lt_chunkCount hc]
  rcases Nat.lt_or_ge i (pos / c) with hless | hmore
  · have hnext : (i + 1) * c ≤ pos / c * c := Nat.mul_le_mul_right c hless
    rw [Nat.succ_mul] at hnext
    omega
  · have hnext : (pos / c + 1) * c ≤ i * c :=
      Nat.mul_le_mul_right c (Nat.lt_of_le_of_ne hmore (Ne.symm hne))
    rw [Nat.succ_mul] at hnext
    omega

theorem chunkCount_splice_of_le (hpos : pos ≤ data.length) (hpiece : pos % c + piece.length ≤ c)
    (hne : piece ≠ []) (hfresh : data.length ≤ pos / c * c) :
    chunkCount c (splice data pos piece).length = pos / c + 1 := by
  have hsplit : pos / c * c + pos % c = pos := Nat.div_add_mod' pos c
  have hlength : 0 < piece.length := List.length_pos_iff.mpr hne
  apply chunkCount_eq_succ
  · rw [length_splice hpos]
    omega
  · rw [length_splice hpos, Nat.succ_mul]
    omega

theorem chunkCount_splice_of_lt (hpos : pos ≤ data.length) (hpiece : pos % c + piece.length ≤ c)
    (hold : pos / c * c < data.length) :
    chunkCount c (splice data pos piece).length = chunkCount c data.length := by
  have hsplit : pos / c * c + pos % c = pos := Nat.div_add_mod' pos c
  rw [length_splice hpos]
  rcases Nat.le_total (pos + piece.length) data.length with hinside | hpast
  · rw [Nat.max_eq_left hinside]
  · have hend : pos + piece.length ≤ (pos / c + 1) * c := by
      rw [Nat.succ_mul]
      omega
    rw [Nat.max_eq_right hpast, chunkCount_eq_succ hold (Nat.le_trans hpast hend),
      chunkCount_eq_succ (Nat.lt_of_lt_of_le hold hpast) hend]

/-- Reading in a window is reading in the vector up to the end of the window. -/
theorem take_drop_window (n : Nat) :
    ((window c (pos / c) data).drop (pos % c)).take n =
      (data.drop pos).take (min n (c - pos % c)) := by
  have hsplit : pos / c * c + pos % c = pos := Nat.div_add_mod' pos c
  rw [window, List.drop_take, List.drop_drop, hsplit, List.take_take]

theorem chunkCount_le {size : Nat} (hc : 0 < c) : chunkCount c size ≤ size := by
  rw [← Nat.not_lt, lt_chunkCount hc, Nat.not_lt]
  exact Nat.le_mul_of_pos_right size hc

end Windows

end Flat

/-! ## What a caller does -/

/-- What a caller does with a file.  Reopening drops the handle and opens the file again. -/
inductive FileOp where
  | write (buf : Bytes)
  | read (n : Nat)
  | seek (s : ChunkedFile.Seek)
  | reopen (options : Options)
  deriving DecidableEq, Repr

inductive FileOutcome where
  | wrote (n : Nat)
  | got (piece : Bytes)
  | moved (pos : Nat)
  | outside (e : ChunkedFile.SeekError)
  | opened (size pos : Nat)
  | failed (e : ClientError)

namespace Flat

def room (c : Nat) (v : Flat) : Nat :=
  c - v.pos % c

/-- Takes as much as goes into the chunk at the cursor. -/
def write (c : Nat) (v : Flat) (buf : Bytes) : Nat × Flat :=
  let n := min buf.length (v.room c)
  (n, { data := splice v.data v.pos (buf.take n), pos := v.pos + n })

/-- Gives as much as the chunk at the cursor has, and no more than there is. -/
def read (c : Nat) (v : Flat) (n : Nat) : Bytes × Flat :=
  let n := min n (min (v.room c) (v.data.length - v.pos))
  ((v.data.drop v.pos).take n, { v with pos := v.pos + n })

def target (v : Flat) : ChunkedFile.Seek → Int
  | .start offset => offset
  | .current offset => v.pos + offset
  | .fromEnd offset => v.data.length + offset

/-- Moves the cursor to a place in the vector or to its end. -/
def seek (v : Flat) (s : ChunkedFile.Seek) : Except ChunkedFile.SeekError Flat :=
  if 0 ≤ v.target s ∧ v.target s ≤ v.data.length then .ok { v with pos := (v.target s).toNat }
  else .error ⟨v.target s, v.data.length⟩

def perform (c : Nat) (v : Flat) : FileOp → FileOutcome × Flat
  | .write buf => (.wrote (v.write c buf).1, (v.write c buf).2)
  | .read n => (.got (v.read c n).1, (v.read c n).2)
  | .seek s =>
      match v.seek s with
      | .ok v => (.moved v.pos, v)
      | .error e => (.outside e, v)
  | .reopen _ => (.opened v.data.length 0, { v with pos := 0 })

/-! ## What every operation keeps -/

section Perform

variable {c : Nat} {v : Flat}

theorem room_add_offset (hc : 0 < c) : v.pos % c + v.room c = c := by
  have hoffset := Nat.mod_lt v.pos hc
  unfold room
  omega

theorem length_take_room (hc : 0 < c) (buf : Bytes) :
    v.pos % c + (buf.take (v.room c)).length ≤ c := by
  have hroom := room_add_offset (v := v) hc
  rw [List.length_take]
  omega

theorem take_room_ne_nil (hc : 0 < c) {buf : Bytes} (hbuf : buf ≠ []) :
    buf.take (v.room c) ≠ [] := by
  have hroom := room_add_offset (v := v) hc
  have hless := Nat.mod_lt v.pos hc
  rw [Ne, List.take_eq_nil_iff, not_or]
  exact ⟨by omega, hbuf⟩

/-- A write takes the beginning that the chunk has room for. -/
theorem write_eq (buf : Bytes) :
    v.write c buf = ((buf.take (v.room c)).length,
      { data := splice v.data v.pos (buf.take (v.room c))
        pos := v.pos + (buf.take (v.room c)).length }) := by
  have htake : buf.take (min buf.length (v.room c)) = buf.take (v.room c) := by
    rw [List.take_eq_take_iff]
    omega
  unfold write
  dsimp only
  rw [htake, List.length_take, Nat.min_comm]

theorem write_nil : v.write c [] = (0, v) := by
  rw [write_eq, List.take_nil]
  rw [splice, List.length_nil, Nat.add_zero, List.append_nil, List.take_append_drop]

theorem read_eq (n : Nat) :
    v.read c n = ((v.data.drop v.pos).take (min n (v.room c)),
      { v with pos := v.pos + ((v.data.drop v.pos).take (min n (v.room c))).length }) := by
  have htake : (v.data.drop v.pos).take (min n (min (v.room c) (v.data.length - v.pos))) =
      (v.data.drop v.pos).take (min n (v.room c)) := by
    rw [List.take_eq_take_iff, List.length_drop]
    omega
  have hlength : ((v.data.drop v.pos).take (min n (v.room c))).length =
      min n (min (v.room c) (v.data.length - v.pos)) := by
    rw [List.length_take, List.length_drop]
    omega
  unfold read
  dsimp only
  rw [hlength, htake]

theorem data_of_seek {s : ChunkedFile.Seek} {v' : Flat} (h : v.seek s = .ok v') :
    v'.data = v.data := by
  unfold seek at h
  split at h
  · cases h
    rfl
  · cases h

theorem length_le_perform (op : FileOp) : v.data.length ≤ (v.perform c op).2.data.length := by
  cases op with
  | write buf =>
      unfold perform write splice
      rw [List.length_append, List.length_append, List.length_take, List.length_drop]
      omega
  | read n => exact Nat.le_refl _
  | seek s =>
      cases hseek : v.seek s with
      | ok v' =>
          simp only [perform, hseek]
          exact Nat.le_of_eq (congrArg List.length (data_of_seek hseek).symm)
      | error e =>
          simp only [perform, hseek]
          exact Nat.le_refl _
  | reopen options => exact Nat.le_refl _

end Perform

def performAll (c : Nat) (v : Flat) : List FileOp → List FileOutcome × Flat
  | [] => ([], v)
  | op :: ops =>
      let (outcome, v) := v.perform c op
      let (outcomes, v) := performAll c v ops
      (outcome :: outcomes, v)

theorem length_le_performAll {c : Nat} (v : Flat) (ops : List FileOp) :
    v.data.length ≤ (v.performAll c ops).2.data.length := by
  induction ops generalizing v with
  | nil => exact Nat.le_refl _
  | cons op ops ih => exact Nat.le_trans (length_le_perform op) (ih _)

end Flat
end ReplicaClient
