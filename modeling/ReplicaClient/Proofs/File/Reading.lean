import ReplicaClient.Proofs.File.Layout
import ReplicaClient.Proofs.Object.Telling

/-!
# What a file reads

Before its end a read takes what the chunk at the cursor has past the cursor, and no more than the
chunk was told to have.  Nothing makes sure that a chunk has as many octets as the size of the file
asks for, so a read may come out empty before the end of the file, or move the cursor past it.
-/

namespace ReplicaClient
namespace ChunkedFile

/-- The place of a chunk. -/
def chunkPlace (f : ChunkedFile) (index : Nat) : Place :=
  ⟨Utf8.encode f.root.bucket, none, Utf8.encode (chunkKey f.root.key index)⟩

/-- A file that was made or opened, and has been used since then. -/
inductive Served (peer : Peer) : Journal → ChunkedFile → Prop where
  | made {bucket key contentType : String} {chunkSize : Nat} {options : Options}
      {past journal : Journal} {f : ChunkedFile}
      (hrun : (create bucket key contentType chunkSize options).run peer.serve past =
        (.ok f, journal)) : Served peer journal f
  | opened {bucket key : String} {options : Options} {past journal : Journal} {f : ChunkedFile}
      (hrun : (openFile bucket key options).run peer.serve past = (.ok f, journal)) :
      Served peer journal f
  | wrote {past journal : Journal} {f f' : ChunkedFile} {buf : Bytes}
      {result : Except ClientError Nat} (h : Served peer past f)
      (hrun : (f.write buf).run peer.serve past = ((result, f'), journal)) : Served peer journal f'
  | read {past journal : Journal} {f f' : ChunkedFile} {n : Nat} {result : Except ClientError Bytes}
      (h : Served peer past f) (hrun : (f.read n).run peer.serve past = ((result, f'), journal)) :
      Served peer journal f'
  | moved {journal : Journal} {f f' : ChunkedFile} {m : Seek} (h : Served peer journal f)
      (hseek : f.seek m = .ok f') : Served peer journal f'

/-- The chunk at hand, if any, has the value that was told last of its place. -/
def Known (journal : Journal) (f : ChunkedFile) : Prop :=
  ∀ chunk, f.chunk = some chunk → chunk.Faithful journal f.root.bucket

/-- What comes of a read. -/
structure Report (f : ChunkedFile) (n : Nat) (journal : Journal)
    (result : Except ClientError Bytes) (f' : ChunkedFile) : Prop where
  /-- At the end there is nothing, and nothing changes. -/
  ended : f.size ≤ f.pos → result = .ok [] ∧ f' = f
  size : f'.size = f.size
  /-- Without contents a read fails, and the cursor stays. -/
  failed : ∀ e, result = .error e → f'.pos = f.pos ∧
    (f.root.bucket = "" ∨ journal.told (f.chunkPlace (f.pos / f.chunkSize)) = some [])
  /-- Before the end it gives what the chunk at the cursor has there. -/
  got : f.pos < f.size → ∀ piece, result = .ok piece →
    f'.pos = f.pos + piece.length ∧
      ∃ contents, journal.told (f.chunkPlace (f.pos / f.chunkSize)) = some contents ∧
        contents ≠ [] ∧ piece = ((octets contents).drop (f.pos % f.chunkSize)).take n
  /-- It gives something, and nothing but what belongs there, just if the chunk has one content that
  goes past the cursor and, as far as it is wanted, neither past the chunk nor past the file. -/
  honest_iff : f.pos < f.size → ∀ piece, result = .ok piece →
    (piece ≠ [] ∧ f.pos % f.chunkSize + piece.length ≤ f.chunkSize ∧ f'.pos ≤ f'.size ↔
      ∃ c, journal.told (f.chunkPlace (f.pos / f.chunkSize)) = some [c] ∧
        f.pos % f.chunkSize < c.value.length ∧
        f.pos % f.chunkSize + min n (c.value.length - f.pos % f.chunkSize) ≤ f.chunkSize ∧
        f.pos + min n (c.value.length - f.pos % f.chunkSize) ≤ f.size)

section Served

variable {peer : Peer} {past journal : Journal} {f f' : ChunkedFile}

/-! ## Chunks -/

theorem place_of_chunk {chunk : Object} {i : Nat} (hbucket : chunk.bucket = f.root.bucket)
    (huntyped : chunk.bucketType = none) (hkey : chunk.key = chunkKey f.root.key i) :
    chunk.place = f.chunkPlace i := by
  rw [Object.place, hbucket, huntyped, hkey]
  rfl

/-- The chunk with a number is at hand, new, or told of by the store. -/
theorem Known.chunkAt_cases (h : Known journal f) (peer : Peer) (i : Nat) (make : Bool) :
    (∃ chunk journal', (f.chunkAt i make).run peer.serve journal =
        ((.ok chunk, { f with chunk := some chunk }), journal') ∧
      chunk.key = chunkKey f.root.key i ∧ chunk.bucket = f.root.bucket ∧ chunk.bucketType = none ∧
      (make = false → chunk.Faithful journal' f.root.bucket)) ∨
    ∃ e journal', (f.chunkAt i make).run peer.serve journal =
        ((.error e, { f with chunk := none }), journal') ∧
      (f.root.bucket = "" ∨ journal'.told (f.chunkPlace i) = some []) := by
  by_cases hhand : ∃ chunk, f.chunk = some chunk ∧ chunk.key = chunkKey f.root.key i
  · obtain ⟨chunk, hchunk, hkey⟩ := hhand
    have hfaithful := h chunk hchunk
    refine Or.inl ⟨chunk, journal, ?_, hkey, hfaithful.bucket, hfaithful.untyped,
      fun _ ↦ hfaithful⟩
    rw [chunkAt_of_key_eq hchunk hkey, ← hchunk]
    rfl
  rw [chunkAt_of_key_ne fun chunk hchunk hkey ↦ hhand ⟨chunk, hchunk, hkey⟩]
  cases make with
  | true => exact Or.inl ⟨_, journal, rfl, rfl, rfl, rfl, nofun⟩
  | false =>
      rw [if_neg Bool.false_ne_true, Dialogue.run_bind]
      by_cases hbucket : f.root.bucket = ""
      · rw [hbucket]
        exact Or.inr ⟨.emptyBucketName, journal, rfl, Or.inl rfl⟩
      rcases peer.getFrom_cases journal hbucket (chunkKey f.root.key i) f.root.options with
        ⟨chunk, journal', hrun, hkey, hfaithful⟩ | ⟨e, journal', hrun, htold⟩ <;> rw [hrun]
      · exact Or.inl ⟨chunk, journal', rfl, hkey, hfaithful.bucket, hfaithful.untyped,
          fun _ ↦ hfaithful⟩
      · exact Or.inr ⟨e, journal', rfl, Or.inr htold⟩

/-! ## What is known of the chunk at hand -/

theorem known_of_none (h : f.chunk = none) : Known journal f := by
  intro chunk hchunk
  rw [h] at hchunk
  cases hchunk

theorem Known.read (h : Known past f) {n : Nat} {result : Except ClientError Bytes}
    (hrun : (f.read n).run peer.serve past = ((result, f'), journal)) : Known journal f' := by
  unfold ChunkedFile.read at hrun
  split at hrun
  · cases hrun
    exact h
  · rw [Dialogue.run_bind] at hrun
    rcases h.chunkAt_cases peer (f.pos / f.chunkSize) false with
      ⟨chunk, journal', hchunk, -, -, -, hfaithful⟩ | ⟨e, journal', hchunk, -⟩ <;>
        rw [hchunk] at hrun <;> cases hrun
    · rintro chunk' ⟨⟩
      exact hfaithful rfl
    · exact known_of_none rfl

/-- Storing a chunk makes it faithful, whether or not the store takes it. -/
theorem faithful_of_store (peer : Peer) (journal : Journal) (o : Object) {bucket : String}
    (hbucket : o.bucket = bucket) (huntyped : o.bucketType = none) (hkey : o.key ≠ "") :
    ∃ result o' journal', o.store.run peer.serve journal = ((result, o'), journal') ∧
      o'.key = o.key ∧ o'.Faithful journal' bucket := by
  obtain ⟨result, o', e, hrun, hplace, hcontents, hbucket', huntyped', hdata', hkey'⟩ :=
    peer.store_cases journal o
  have hplace' : o'.place = o.place := by
    rw [Object.place, hbucket', huntyped', hkey' hkey]
    rfl
  refine ⟨result, o', _, hrun, hkey' hkey, hbucket'.trans hbucket, huntyped'.trans huntyped,
    [o.toContent], List.cons_ne_nil _ _, ?_, hdata'⟩
  rw [hplace', ← hcontents]
  exact Journal.last_concat_of_some (Entry.tells?_of_place hplace) journal

/-- Nothing that is said of another place makes an object unfaithful. -/
theorem faithful_of_ne {o : Object} {bucket : String} (h : o.Faithful journal bucket) {e : Entry}
    {place : Place} (hplace : e.request.place? = some place) (hne : place ≠ o.place) :
    o.Faithful (journal ++ [e]) bucket := by
  obtain ⟨contents, hsome, htold, hdata⟩ := h.told
  refine ⟨h.bucket, h.untyped, contents, hsome, ?_, hdata⟩
  rw [← htold]
  exact Journal.last_concat_of_none (Entry.tells?_of_ne hplace hne) journal

/-- The root lies elsewhere than its chunks, so telling of it does not touch the chunk at hand. -/
theorem known_of_advance {chunk : Object} {index length : Nat} {fresh : Bool}
    {result : Except ClientError Nat} (h : chunk.Faithful past f.root.bucket)
    (hkey : chunk.key = chunkKey f.root.key index)
    (hrun : ({ f with chunk := some chunk }.advance index length fresh).run peer.serve past =
      ((result, f'), journal)) : Known journal f' := by
  unfold advance at hrun
  dsimp only at hrun
  split at hrun
  · split at hrun
    · let root : Object := { f.root with
        metadata := Assoc.insert chunkCountName (toString (index + 1)) f.root.metadata }
      obtain ⟨stored, root', e, hstore, hplace, -, hbucket, -⟩ := peer.store_cases past root
      have hne : root.place ≠ chunk.place := by
        intro heq
        have hsame := Utf8.encode_injective (congrArg Place.key heq)
        rw [hkey] at hsame
        exact chunkKey_ne f.root.key index hsame.symm
      have hfaithful := faithful_of_ne h hplace hne
      have hroot : root'.bucket = f.root.bucket := hbucket
      rw [← hroot] at hfaithful
      rw [Dialogue.run_bind, hstore] at hrun
      cases stored <;> cases hrun <;> rintro chunk' ⟨⟩ <;> exact hfaithful
    · cases hrun
      rintro chunk' ⟨⟩
      exact h
  · cases hrun
    rintro chunk' ⟨⟩
    exact h

theorem Known.write (h : Known past f) {buf : Bytes} {result : Except ClientError Nat}
    (hrun : (f.write buf).run peer.serve past = ((result, f'), journal)) : Known journal f' := by
  unfold ChunkedFile.write at hrun
  split at hrun
  · cases hrun
    exact h
  dsimp only at hrun
  rw [Dialogue.run_bind] at hrun
  rcases h.chunkAt_cases peer (f.pos / f.chunkSize)
      (decide (f.size ≤ f.pos / f.chunkSize * f.chunkSize)) with
    ⟨chunk, journal₁, hchunk, hkey, hbucket, huntyped, -⟩ | ⟨e, journal₁, hchunk, -⟩ <;>
      rw [hchunk] at hrun
  · let written : Object := { chunk with
      data := overwrite chunk.data (f.pos % f.chunkSize)
        (buf.take (f.chunkSize - f.pos % f.chunkSize)) }
    have hnamed : written.key ≠ "" := by
      rw [show written.key = _ from hkey]
      exact chunkKey_ne_empty _ _
    obtain ⟨stored, chunk', journal₂, hstore, hkey', hfaithful⟩ :=
      faithful_of_store peer journal₁ written hbucket huntyped hnamed
    dsimp only at hrun
    rw [Dialogue.run_bind, hstore] at hrun
    cases stored with
    | error e =>
        cases hrun
        rintro chunk'' ⟨⟩
        exact hfaithful
    | ok u => exact known_of_advance hfaithful (hkey'.trans hkey) hrun
  · cases hrun
    exact known_of_none rfl

theorem known_of_create {bucket key contentType : String} {chunkSize : Nat} {options : Options}
    (hrun : (create bucket key contentType chunkSize options).run peer.serve past =
      (.ok f, journal)) : Known journal f := by
  unfold create at hrun
  split at hrun
  · rw [Dialogue.run_bind] at hrun
    rcases hstore : (newRoot bucket key contentType chunkSize options).store.run peer.serve past with
      ⟨⟨e | u, root⟩, journal₁⟩ <;> rw [hstore] at hrun <;> cases hrun
    exact known_of_none rfl
  · cases hrun

theorem known_of_open {bucket key : String} {options : Options}
    (hrun : (openFile bucket key options).run peer.serve past = (.ok f, journal)) :
    Known journal f := by
  unfold openFile Dialogue.andThen at hrun
  rw [Dialogue.run_bind] at hrun
  rcases hroot : (Store.getFrom bucket key options).run peer.serve past with ⟨e | root, journal₁⟩ <;>
    rw [hroot] at hrun
  · cases hrun
  dsimp only at hrun
  cases hlayout : layout? root.metadata with
  | none =>
    rw [hlayout] at hrun
    cases hrun
  | some layout =>
    obtain ⟨chunkSize, chunkCount⟩ := layout
    rw [hlayout] at hrun
    dsimp only at hrun
    split at hrun
    · cases hrun
      exact known_of_none rfl
    · have hbefore : Known journal₁ { root, chunkSize } := known_of_none rfl
      rw [Dialogue.run_bind] at hrun
      rcases hbefore.chunkAt_cases peer (chunkCount - 1) false with
        ⟨chunk, journal₂, hchunk, -, -, -, hfaithful⟩ | ⟨e, journal₂, hchunk, -⟩ <;>
          rw [hchunk] at hrun <;> cases hrun
      rintro chunk' ⟨⟩
      exact hfaithful rfl

/-- By induction on the use: every step keeps the chunk at hand to what was told. -/
theorem Served.known (h : Served peer journal f) : Known journal f := by
  induction h with
  | made hrun => exact known_of_create hrun
  | opened hrun => exact known_of_open hrun
  | wrote _ hrun ih => exact ih.write hrun
  | read _ hrun ih => exact ih.read hrun
  | @moved journal f f' m _ hseek ih =>
      unfold ChunkedFile.seek at hseek
      dsimp only at hseek
      split at hseek <;> cases hseek
      exact ih

/-! ## Reports -/

/-- Only a single content has something past an offset. -/
theorem exists_piece_iff {n : Nat} (hn : n ≠ 0) (contents : List Content) (offset : Nat)
    (within : Nat → Prop) :
    (((octets contents).drop offset).take n ≠ [] ∧
        within (((octets contents).drop offset).take n).length) ↔
      ∃ c, contents = [c] ∧ offset < c.value.length ∧ within (min n (c.value.length - offset)) := by
  rw [← List.length_pos_iff, List.length_take, List.length_drop]
  rcases contents with _ | ⟨c, _ | ⟨c', contents⟩⟩
  · simp [octets]
  · dsimp only [octets]
    constructor
    · rintro ⟨hpiece, hwithin⟩
      exact ⟨c, rfl, by omega, hwithin⟩
    · rintro ⟨c', heq, hoffset, hwithin⟩
      cases heq
      exact ⟨by omega, hwithin⟩
  · simp [octets]

/-- A read that does not fail gives what the chunk at the cursor was told to have.  It reports the end
of the file before it is there if the chunk has several contents or is too short, and runs over the
end of the chunk or of the file if the chunk is too long. -/
theorem report_of_read {n : Nat} {result : Except ClientError Bytes} (h : Served peer past f)
    (hn : n ≠ 0) (hrun : (f.read n).run peer.serve past = ((result, f'), journal)) :
    Report f n journal result f' := by
  unfold ChunkedFile.read at hrun
  by_cases hover : f.size ≤ f.pos
  · rw [if_pos (Or.inr hover)] at hrun
    cases hrun
    exact {
      ended := fun _ ↦ ⟨rfl, rfl⟩
      size := rfl
      failed := fun _ herror ↦ nomatch herror
      got := fun hbefore ↦ absurd hover (Nat.not_le.mpr hbefore)
      honest_iff := fun hbefore ↦ absurd hover (Nat.not_le.mpr hbefore) }
  rw [if_neg (not_or.mpr ⟨hn, hover⟩)] at hrun
  dsimp only at hrun
  rw [Dialogue.run_bind] at hrun
  rcases h.known.chunkAt_cases peer (f.pos / f.chunkSize) false with
    ⟨chunk, journal', hchunk, hkey, hbucket, huntyped, hfaithful⟩ | ⟨e, journal', hchunk, htold⟩ <;>
      rw [hchunk] at hrun <;> cases hrun
  · obtain ⟨contents, hsome, htold, hdata⟩ := (hfaithful rfl).told
    rw [place_of_chunk hbucket huntyped hkey] at htold
    refine {
      ended := fun hend ↦ absurd hend hover
      size := rfl
      failed := fun _ herror ↦ nomatch herror
      got := ?_
      honest_iff := ?_ }
    · rintro - piece ⟨⟩
      refine ⟨rfl, contents, htold, hsome, ?_⟩
      rw [hdata]
    · rintro hbefore piece ⟨⟩
      have hiff := exists_piece_iff hn contents (f.pos % f.chunkSize)
        fun k ↦ f.pos % f.chunkSize + k ≤ f.chunkSize ∧ f.pos + k ≤ f.size
      rw [htold]
      simp only [Option.some_inj]
      rw [← hdata] at hiff
      exact hiff
  · exact {
      ended := fun hend ↦ absurd hend hover
      size := rfl
      failed := fun _ _ ↦ ⟨rfl, htold⟩
      got := fun _ _ hok ↦ nomatch hok
      honest_iff := fun _ _ hok ↦ nomatch hok }

end Served

/-- A file of two chunks, of which the first one is in conflict. -/
def forked (key : Bytes) : List Content :=
  if key = Utf8.encode "movie" then
    [{ usermeta := (layoutOf 4 2).map fun (k, v) ↦ Pair.ofTexts k v }]
  else if key = Utf8.encode "movie-000000" then [{ value := [97] }, { value := [98] }]
  else [{ value := [99] }]

theorem report_of_read_forked :
    ∃ journal f journal' f', Served (.showing forked) journal f ∧
      (f.read 4).run (Peer.showing forked).serve journal = ((.ok [], f'), journal') ∧
      f.pos < f.size ∧ Report f 4 journal' (.ok []) f' := by
  have hopened : Served (.showing forked) _ _ :=
    .opened (rfl : (openFile "files" "movie" {}).run _ [] = _)
  obtain ⟨journal, f, h, journal', f', hrun, hbefore⟩ :
      ∃ journal f, Served (.showing forked) journal f ∧ ∃ journal' f',
        (f.read 4).run (Peer.showing forked).serve journal = ((.ok [], f'), journal') ∧
        f.pos < f.size :=
    ⟨_, _, hopened, _, _, rfl, by decide⟩
  exact ⟨journal, f, journal', f', h, hrun, hbefore, report_of_read h (by decide) hrun⟩

end ChunkedFile
end ReplicaClient
