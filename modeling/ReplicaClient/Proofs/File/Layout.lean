import Mathlib.Data.List.DropRight
import ReplicaClient.Proofs.File.Flat
import ReplicaClient.Proofs.Object.Replies
import ReplicaClient.Proofs.Text.Natural

/-!
# How a file lies in the store

The metadata of a root survive the way to the store and back, the key of a chunk tells its file and
its number and is not the key of the root, and what a write makes of the data of a chunk is a splice.
-/

namespace ReplicaClient
namespace ChunkedFile

/-! ## Keys -/

/-- The key of the file and the number of the chunk, read off the key of the chunk.  The number has
no dash in it, so it stands behind the last one, whatever the key of the file looks like. -/
def chunkOfKey (key : String) : String × Nat :=
  (String.ofList (key.toList.rdropWhile (· ≠ '-')).dropLast,
    Text.ofDigits (key.toList.rtakeWhile (· ≠ '-')))

theorem chunkOfKey_chunkKey (key : String) (i : Nat) : chunkOfKey (chunkKey key i) = (key, i) := by
  have hlist : (chunkKey key i).toList = (key.toList ++ ['-']) ++ Text.padded 6 i := by
    simp [chunkKey]
  have hdigits : ∀ c ∈ (Text.padded 6 i).reverse, decide (c ≠ '-') = true := by
    intro c hc
    exact decide_eq_true (Text.ne_dash_of_mem_padded (List.mem_reverse.mp hc))
  have hnumber : (chunkKey key i).toList.rtakeWhile (· ≠ '-') = Text.padded 6 i := by
    rw [hlist, List.rtakeWhile, List.reverse_append, List.takeWhile_append_of_pos hdigits]
    simp
  have hfile : (chunkKey key i).toList.rdropWhile (· ≠ '-') = key.toList ++ ['-'] := by
    rw [hlist, List.rdropWhile, List.reverse_append, List.dropWhile_append_of_pos hdigits]
    simp
  rw [chunkOfKey, hnumber, hfile, List.dropLast_concat, String.ofList_toList, Text.ofDigits_padded]

example : chunkOfKey "f-000001-1000000" = ("f-000001", 1000000) := by decide

theorem eq_of_chunkKey_eq {key other : String} {i j : Nat}
    (h : chunkKey key i = chunkKey other j) : key = other ∧ i = j := by
  have hchunk := congrArg chunkOfKey h
  rw [chunkOfKey_chunkKey, chunkOfKey_chunkKey] at hchunk
  exact Prod.mk.inj hchunk

/-- Chunks with one key belong to one file and have one number. -/
theorem chunkKey_eq_iff {key other : String} {i j : Nat} :
    chunkKey key i = chunkKey other j ↔ key = other ∧ i = j := by
  constructor
  · exact eq_of_chunkKey_eq
  · rintro ⟨rfl, rfl⟩
    rfl

theorem chunkKey_inj {key : String} {i j : Nat} : chunkKey key i = chunkKey key j ↔ i = j := by
  constructor
  · exact fun h ↦ (eq_of_chunkKey_eq h).2
  · exact congrArg (chunkKey key)

theorem chunkKey_ne (key : String) (i : Nat) : chunkKey key i ≠ key := by
  intro h
  have hlist := congrArg String.toList h
  unfold chunkKey at hlist
  rw [String.toList_append, String.toList_ofList, List.append_right_eq_self] at hlist
  cases hlist

theorem chunkKey_ne_empty (key : String) (i : Nat) : chunkKey key i ≠ "" := by
  intro h
  have hlist := congrArg String.toList h
  unfold chunkKey at hlist
  rw [String.toList_append, String.toList_ofList] at hlist
  exact List.append_ne_nil_of_right_ne_nil _ (List.cons_ne_nil _ _) hlist

theorem pos_of_validChunkSize {c : Nat} (h : validChunkSize c = true) : 0 < c :=
  of_decide_eq_true (Bool.and_eq_true_iff.mp h).1

/-! ## The chunk at hand -/

section Hand

variable {f : ChunkedFile} {i : Nat}

theorem chunkAt_of_key_eq {chunk : Object} (hchunk : f.chunk = some chunk)
    (hkey : chunk.key = chunkKey f.root.key i) (make : Bool) :
    f.chunkAt i make = .done (.ok chunk, f) := by
  unfold chunkAt
  rw [hchunk]
  exact if_pos hkey

theorem chunkAt_of_key_ne
    (hne : ∀ chunk, f.chunk = some chunk → chunk.key ≠ chunkKey f.root.key i) (make : Bool) :
    f.chunkAt i make = if make then
        let chunk : Object :=
          { bucket := f.root.bucket, key := chunkKey f.root.key i, options := f.root.options,
            contentType := f.root.contentType }
        .done (.ok chunk, { f with chunk := some chunk })
      else
        (Store.getFrom f.root.bucket (chunkKey f.root.key i) f.root.options).bind fun
          | .error e => .done (.error e, { f with chunk := none })
          | .ok chunk => .done (.ok chunk, { f with chunk := some chunk }) := by
  unfold chunkAt
  dsimp only
  split
  case h_1 chunk hchunk => exact if_neg (hne chunk hchunk)
  case h_2 => rfl

end Hand

/-! ## Metadata -/

/-- The metadata of the root of a file. -/
def layoutOf (chunkSize chunkCount : Nat) : Meta :=
  [(chunkCountName, toString chunkCount), (chunkSizeName, toString chunkSize)]

section Layout

variable (c n m : Nat)

theorem insert_chunkCount :
    Assoc.insert chunkCountName (toString m) (layoutOf c n) = layoutOf c m := by
  unfold layoutOf Assoc.insert
  rw [if_neg (by decide), if_pos rfl]

theorem metadata_newRoot (bucket key contentType : String) (options : Options) :
    (newRoot bucket key contentType c options).metadata = layoutOf c 0 := by
  show Assoc.insert chunkCountName "0" [(chunkSizeName, toString c)] = _
  rw [Assoc.insert, if_pos (by decide)]
  rfl

/-- The metadata come back from the pairs that are sent. -/
theorem ofList_layoutOf :
    Assoc.ofList (((layoutOf c n).map fun (k, v) ↦ Pair.ofTexts k v).map Pair.texts) =
      layoutOf c n := by
  have htexts : (Pair.texts ∘ fun (p : String × String) ↦ Pair.ofTexts p.1 p.2) = id := by
    funext p
    exact Pair.texts_ofTexts p.1 p.2
  rw [List.map_map, htexts, List.map_id]
  have hfirst : Assoc.insert chunkCountName (toString n) [] = [(chunkCountName, toString n)] := rfl
  have hsecond : Assoc.insert chunkSizeName (toString c) [(chunkCountName, toString n)] =
      [(chunkCountName, toString n), (chunkSizeName, toString c)] := by
    rw [Assoc.insert, if_neg (by decide), if_neg (by decide)]
    rfl
  rw [layoutOf, Assoc.ofList, List.foldl_cons, List.foldl_cons, List.foldl_nil, hfirst, hsecond]

variable {c n}

theorem layout?_layoutOf (hc : validChunkSize c = true) (hn : n < UInt64.size) :
    layout? (layoutOf c n) = some (c, n) := by
  have hsize : c < UInt64.size := by
    have hmax : c ≤ maxChunkSize := of_decide_eq_true (Bool.and_eq_true_iff.mp hc).2
    exact Nat.lt_of_le_of_lt hmax (by decide)
  have hfindSize : Assoc.find? chunkSizeName (layoutOf c n) = some (toString c) := by
    rw [layoutOf, Assoc.find?, if_neg (by decide), Assoc.find?, if_pos rfl]
  have hfindCount : Assoc.find? chunkCountName (layoutOf c n) = some (toString n) := by
    rw [layoutOf, Assoc.find?, if_pos rfl]
  rw [layout?, hfindSize, hfindCount]
  simp only [Option.bind_eq_bind, Option.bind_some, parseSize?, Text.natural?_toString hsize,
    Text.natural?_toString hn, hc, if_true]

end Layout

/-! ## Data -/

/-- A write never starts past the end of a chunk, so it need not fill a gap. -/
theorem overwrite_eq_splice {data : Bytes} {offset : Nat} (h : offset ≤ data.length)
    (piece : Bytes) : overwrite data offset piece = Flat.splice data offset piece := by
  unfold overwrite Flat.splice
  dsimp only
  rw [List.take_append_of_le_length h]
  congr 1
  rcases Nat.le_total (offset + piece.length) data.length with hinside | hpast
  · rw [Nat.sub_eq_zero_of_le hinside, List.replicate_zero, List.append_nil]
  · rw [List.drop_eq_nil_of_le hpast, List.drop_eq_nil_of_le]
    rw [List.length_append, List.length_replicate]
    omega

end ChunkedFile
end ReplicaClient
