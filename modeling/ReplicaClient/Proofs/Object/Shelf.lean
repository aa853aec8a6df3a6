import ReplicaClient.Object.Conflict
import ReplicaClient.Object.Store

/-!
# A store that keeps siblings

A shelf holds what a store keeps under one key of a bucket that allows siblings.  Its clock
counts the writes.  A write discards the versions up to the clock that it echoes, adds its own,
and hears the new clock and the heads of all versions that are left; a read hears the versions
and the clock, or that nothing has changed.
-/

namespace ReplicaClient

/-- A version and the clock at which it was written. -/
structure Version where
  content : Content
  writtenAt : Nat
  deriving DecidableEq, Repr

structure Shelf where
  clock : Nat := 0
  versions : List Version := []
  deriving DecidableEq, Repr

/-- What a reply tells of the versions on the shelf. -/
inductive Heard where
  | versions (stamps : List Nat)
  | unchanged
  | heads (written : Nat) (stamps : List Nat)
  deriving DecidableEq, Repr

namespace Shelf

/-- A clock travels as a word of eight octets. -/
def clockBytes (clock : Nat) : Bytes :=
  Bytes.bigEndian 8 clock

def parseClock (bs : Bytes) : Nat :=
  if bs.length = 8 then Bytes.toNatBigEndian bs else 0

def stamps (s : Shelf) : List Nat :=
  s.versions.map Version.writtenAt

def head (c : Content) : Content :=
  { c with value := [] }

/-- Nothing is there before the first write, and only a clock after a deletion. -/
def get (s : Shelf) (q : GetRequest) : GetReply × Heard :=
  if s.clock = 0 then ({}, .versions [])
  else if q.ifModified = some (clockBytes s.clock) then ({ unchanged := some true }, .unchanged)
  else if s.versions = [] then
    ({ vclock := if q.deletedVclock.getD false then some (clockBytes s.clock) else none },
      .versions [])
  else
    ({ contents := s.versions.map fun v ↦ if q.head.getD false then head v.content else v.content
       vclock := some (clockBytes s.clock) }, .versions s.stamps)

def write (s : Shelf) (q : PutRequest) : Shelf where
  clock := s.clock + 1
  versions :=
    s.versions.filter (fun v ↦ (q.vclock.map parseClock).getD 0 < v.writtenAt) ++
      [⟨{ q.content with
          vtag := some (Utf8.encode ("vt" ++ toString (s.clock + 1)))
          lastMod := some (1700000000 + UInt32.ofNat (s.clock + 1))
          lastModUsecs := some (UInt32.ofNat (s.clock + 1)) }, s.clock + 1⟩]

def putReply (s : Shelf) (q : PutRequest) : PutReply where
  contents := if q.returnHead.getD false then s.versions.map (head ·.content) else []
  vclock := some (clockBytes s.clock)

/-- Whatever the clock of the request is, a deletion clears the shelf. -/
def clear (s : Shelf) : Shelf :=
  { clock := s.clock + 1, versions := [] }

end Shelf

/-- A shelf and what has been heard of it in one dialogue. -/
structure Desk where
  shelf : Shelf
  heard : List Heard := []

namespace Desk

/-- Answers the requests for one key; others are for others to answer.  A clock that has come to
its end breaks the connection. -/
def answer (bucket key : String) (q : Request) (d : Desk) : Except ClientError q.Reply × Desk :=
  match q with
  | .get q =>
      if q.bucket = Utf8.encode bucket ∧ q.key = Utf8.encode key then
        (.ok (d.shelf.get q).1, { d with heard := d.heard ++ [(d.shelf.get q).2] })
      else (.error (.server "unsupported request" 1), d)
  | .put q =>
      if q.bucket = Utf8.encode bucket ∧ q.key = some (Utf8.encode key) then
        if d.shelf.clock + 1 < Bytes.wordCount 8 then
          (.ok ((d.shelf.write q).putReply q),
            ⟨d.shelf.write q, d.heard ++ [.heads (d.shelf.clock + 1) (d.shelf.write q).stamps]⟩)
        else (.error .connectionClosed, d)
      else (.error (.server "unsupported request" 1), d)
  | .delete q =>
      if q.bucket = Utf8.encode bucket ∧ q.key = Utf8.encode key then
        if d.shelf.clock + 1 < Bytes.wordCount 8 then (.ok (), { d with shelf := d.shelf.clear })
        else (.error .connectionClosed, d)
      else (.error (.server "unsupported request" 1), d)
  | _ => (.error (.server "unsupported request" 1), d)

end Desk

namespace Shelf

variable {s : Shelf}

theorem parseClock_clockBytes {clock : Nat} (h : clock < Bytes.wordCount 8) :
    parseClock (clockBytes clock) = clock := by
  have hlength : (clockBytes clock).length = 8 := Bytes.length_bigEndian 8 clock
  rw [parseClock, if_pos hlength]
  exact Bytes.toNatBigEndian_bigEndian h

theorem clockBytes_ne_nil (clock : Nat) : clockBytes clock ≠ [] := by
  intro h
  have hlength := Bytes.length_bigEndian 8 clock
  rw [clockBytes] at h
  rw [h] at hlength
  cases hlength

theorem parseClock_nonEmpty (bs : Bytes) : ((nonEmpty bs).map parseClock).getD 0 = parseClock bs := by
  cases bs with
  | nil => rfl
  | cons b bs => rfl

/-- What the shelf says to a reader: nothing was ever written, nothing has changed, everything was
deleted, or these are the versions. -/
theorem get_cases (s : Shelf) (q : GetRequest) :
    (s.clock = 0 ∧ s.get q = ({}, .versions [])) ∨
    (s.clock ≠ 0 ∧ q.ifModified = some (clockBytes s.clock) ∧
      s.get q = ({ unchanged := some true }, .unchanged)) ∨
    (s.clock ≠ 0 ∧ q.ifModified ≠ some (clockBytes s.clock) ∧ s.versions = [] ∧
      ∃ vclock, (vclock = none ∨ vclock = some (clockBytes s.clock)) ∧
        s.get q = ({ vclock }, .versions [])) ∨
    (s.clock ≠ 0 ∧ q.ifModified ≠ some (clockBytes s.clock) ∧
      ∃ c contents, s.get q =
        ({ contents := c :: contents, vclock := some (clockBytes s.clock) },
          .versions s.stamps)) := by
  unfold get
  by_cases hzero : s.clock = 0
  · exact Or.inl ⟨hzero, if_pos hzero⟩
  · rw [if_neg hzero]
    by_cases hcurrent : q.ifModified = some (clockBytes s.clock)
    · exact Or.inr (Or.inl ⟨hzero, hcurrent, if_pos hcurrent⟩)
    · rw [if_neg hcurrent]
      right
      right
      cases hversions : s.versions with
      | nil =>
          left
          refine ⟨hzero, hcurrent, rfl, _, ?_, if_pos rfl⟩
          split
          · exact Or.inr rfl
          · exact Or.inl rfl
      | cons v versions =>
          right
          let shown : Version → Content := fun v ↦
            if q.head.getD false then head v.content else v.content
          refine ⟨hzero, hcurrent, shown v, versions.map shown, ?_⟩
          rw [if_neg (List.cons_ne_nil v versions)]
          rfl

/-- Stamps lie between the first write and the clock. -/
structure Sound (s : Shelf) : Prop where
  clock_lt : s.clock < Bytes.wordCount 8
  stamp_pos : ∀ v ∈ s.versions, 0 < v.writtenAt
  stamp_le : ∀ v ∈ s.versions, v.writtenAt ≤ s.clock

namespace Sound

theorem empty : Sound {} where
  clock_lt := by decide
  stamp_pos := by simp
  stamp_le := by simp

/-- A write keeps what was written after the clock it echoes, and adds one version. -/
theorem mem_write {q : PutRequest} {v : Version} (hv : v ∈ (s.write q).versions) :
    (v ∈ s.versions ∧ (q.vclock.map parseClock).getD 0 < v.writtenAt) ∨
      v.writtenAt = s.clock + 1 := by
  rcases List.mem_append.mp hv with hv | hv
  · exact Or.inl (by simpa using hv)
  · obtain rfl := List.mem_singleton.mp hv
    exact Or.inr rfl

theorem write (h : s.Sound) (q : PutRequest) (hclock : s.clock + 1 < Bytes.wordCount 8) :
    (s.write q).Sound where
  clock_lt := hclock
  stamp_pos v hv := by
    rcases mem_write hv with ⟨hv, -⟩ | hv
    · exact h.stamp_pos v hv
    · omega
  stamp_le v hv := by
    have hnext : (s.write q).clock = s.clock + 1 := rfl
    rcases mem_write hv with ⟨hv, -⟩ | hv
    · have := h.stamp_le v hv
      omega
    · omega

theorem clear (hclock : s.clock + 1 < Bytes.wordCount 8) : s.clear.Sound where
  clock_lt := hclock
  stamp_pos := by simp [Shelf.clear]
  stamp_le := by simp [Shelf.clear]

/-- Exactly the versions up to the echoed clock are discarded. -/
theorem not_mem_write_iff (h : s.Sound) {q : PutRequest} {v : Version} (hv : v ∈ s.versions) :
    v ∉ (s.write q).versions ↔ v.writtenAt ≤ (q.vclock.map parseClock).getD 0 := by
  constructor
  · intro hgone
    refine Nat.le_of_not_lt fun hlt ↦ hgone ?_
    exact List.mem_append_left _ (List.mem_filter.mpr ⟨hv, by simpa using hlt⟩)
  · intro hle hkept
    have hstamp := h.stamp_le v hv
    rcases mem_write hkept with ⟨-, hlt⟩ | hlast <;> omega

end Sound
end Shelf
end ReplicaClient
