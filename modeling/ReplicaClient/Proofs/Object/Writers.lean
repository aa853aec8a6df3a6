import ReplicaClient.Proofs.Object.Replies
import ReplicaClient.Proofs.Object.Shelf

/-!
# Writers around one shelf

Any number of callers fetch, change, resolve, reload, store and delete their own objects, which
all stand for the same key.  An object covers the versions up to its clock.  These are the ones it
has written or received in a reply to a read, and the ones that the reply to its last write
merely named.
-/

namespace ReplicaClient

/-- A caller may change everything in an object but its place and its clock. -/
def Object.alter (f : Object → Object) (o : Object) : Object :=
  { f o with bucket := o.bucket, bucketType := o.bucketType, key := o.key, vclock := o.vclock }

/-- A caller's object, the stamps of the versions that this object has written or received, and of
those that the reply to its last write has named. -/
structure Writer where
  object : Option Object := none
  known : List Nat := []
  named : List Nat := []

inductive Deed where
  | fetch (bucketType : Option String) (options : Options)
  | edit (f : Object → Object)
  | resolve (resolver : Resolver Unit)
  | reload
  | store
  | delete

namespace Writer

def seen (w : Writer) : Nat :=
  (w.object.map fun o ↦ Shelf.parseClock o.vclock).getD 0

def hear (w : Writer) : Heard → Writer
  | .versions stamps => { w with known := w.known ++ stamps, named := [] }
  | .unchanged => w
  | .heads written stamps => { w with known := w.known ++ [written], named := stamps }

/-- The versions that the object covers without having written or received them. -/
def blind (w : Writer) (s : Shelf) : List Version :=
  s.versions.filter fun v ↦ v.writtenAt ∈ w.named ∧ v.writtenAt ∉ w.known

/-- Fetching makes a new object, which may be that of a tombstone. -/
def fetch (bucket key : String) (bucketType : Option String) (options : Options) (w : Writer)
    (s : Shelf) : Bool × Writer × Shelf :=
  match (Object.fetch bucket bucketType key options).run (Desk.answer bucket key) ⟨s, []⟩ with
  | (.ok o, d) => (true, d.heard.foldl hear { object := some o }, d.shelf)
  | (.error (.notFound o), d) => (false, d.heard.foldl hear { object := some o }, d.shelf)
  | (.error _, d) => (false, w, d.shelf)

/-- Does something with the object that may change it, and tells whether it has succeeded. -/
def use (bucket key : String) (act : Object → Dialogue (Except ClientError Unit × Object))
    (w : Writer) (s : Shelf) : Bool × Writer × Shelf :=
  match w.object with
  | none => (false, w, s)
  | some o =>
      match (act o).run (Desk.answer bucket key) ⟨s, []⟩ with
      | ((.ok (), o), d) => (true, d.heard.foldl hear { w with object := some o }, d.shelf)
      | ((.error _, o), d) => (false, d.heard.foldl hear { w with object := some o }, d.shelf)

def perform (bucket key : String) (w : Writer) (s : Shelf) : Deed → Bool × Writer × Shelf
  | .fetch bucketType options => w.fetch bucket key bucketType options s
  | .edit f => (true, { w with object := w.object.map (Object.alter f) }, s)
  | .resolve resolver =>
      (true, { w with object := w.object.map (Object.alter fun o ↦ (o.resolve resolver).2.2) }, s)
  | .reload => w.use bucket key Object.reload s
  | .store => w.use bucket key Object.store s
  | .delete => w.use bucket key (fun o ↦ do return (← o.delete, o)) s

end Writer

/-! ## What each operation does -/

namespace Object

variable (bucket key : String) (o : Object) (s : Shelf)

/-- A store either fails and leaves everything as it was, or writes with the clock of the object,
which then takes that of the shelf. -/
theorem store_run :
    (∃ e, o.store.run (Desk.answer bucket key) ⟨s, []⟩ = ((.error e, o), ⟨s, []⟩)) ∨
    (s.clock + 1 < Bytes.wordCount 8 ∧
      ∃ o' q, o'.vclock = Shelf.clockBytes (s.clock + 1) ∧ q.vclock = nonEmpty o.vclock ∧
        o.store.run (Desk.answer bucket key) ⟨s, []⟩ =
          ((.ok (), o'), ⟨s.write q, [.heads (s.clock + 1) (s.write q).stamps]⟩)) := by
  by_cases hplace : o.putRequest.bucket = Utf8.encode bucket ∧
      o.putRequest.key = some (Utf8.encode key)
  · by_cases hclock : s.clock + 1 < Bytes.wordCount 8
    · refine Or.inr ⟨hclock, o.afterPut ((s.write o.putRequest).putReply o.putRequest),
        o.putRequest, vclock_afterPut _ _, rfl, ?_⟩
      simp only [store, Dialogue.update, Dialogue.run, Desk.answer, if_pos hplace, if_pos hclock,
        List.nil_append]
    · left
      simp only [store, Dialogue.update, Dialogue.run, Desk.answer, if_pos hplace, if_neg hclock]
      exact ⟨_, rfl⟩
  · left
    simp only [store, Dialogue.update, Dialogue.run, Desk.answer, if_neg hplace]
    exact ⟨_, rfl⟩

/-- A reload fails without a reply, learns that nothing has changed, receives all versions, or finds
that there are none. -/
theorem reload_run :
    (∃ e, o.reload.run (Desk.answer bucket key) ⟨s, []⟩ = ((.error e, o), ⟨s, []⟩)) ∨
    (o.vclock = Shelf.clockBytes s.clock ∧ s.clock ≠ 0 ∧
      o.reload.run (Desk.answer bucket key) ⟨s, []⟩ = ((.ok (), o), ⟨s, [.unchanged]⟩)) ∨
    (o.vclock ≠ Shelf.clockBytes s.clock ∧ ∃ o', o'.vclock = Shelf.clockBytes s.clock ∧
      o.reload.run (Desk.answer bucket key) ⟨s, []⟩ =
        ((.ok (), o'), ⟨s, [.versions s.stamps]⟩)) ∨
    ((s.clock = 0 ∨ s.versions = []) ∧ ∃ o' e,
      (o'.vclock = [] ∨ o'.vclock = Shelf.clockBytes s.clock) ∧
      o.reload.run (Desk.answer bucket key) ⟨s, []⟩ = ((.error e, o'), ⟨s, [.versions []]⟩)) := by
  by_cases hkey : o.key.isEmpty
  · left
    simp only [reload, if_pos hkey]
    exact ⟨_, rfl⟩
  · by_cases hplace : Utf8.encode o.bucket = Utf8.encode bucket ∧ Utf8.encode o.key = Utf8.encode key
    · right
      have hcurrent := nonEmpty_eq_some o.vclock (Shelf.clockBytes_ne_nil s.clock)
      simp only [reload, if_neg hkey, Dialogue.update, reloadRequest, Dialogue.run, Desk.answer,
        if_pos hplace, List.nil_append]
      rcases s.get_cases {
          bucket := Utf8.encode o.bucket
          key := Utf8.encode o.key
          r := Options.wire o.options.r
          pr := Options.wire o.options.pr
          ifModified := nonEmpty o.vclock
          deletedVclock := some true
          bucketType := textBytes o.bucketType } with
        ⟨hzero, hget⟩ | ⟨hzero, hmodified, hget⟩ | ⟨-, -, hnil, vclock, hvclock, hget⟩ |
          ⟨-, hmodified, c, contents, hget⟩
      · right
        right
        simp only [hget]
        exact ⟨Or.inl hzero, _, _, Or.inl rfl, rfl⟩
      · left
        simp only [hget]
        exact ⟨hcurrent.mp hmodified, hzero, rfl⟩
      · right
        right
        simp only [hget]
        refine ⟨Or.inr hnil, _, _, ?_, rfl⟩
        rcases hvclock with rfl | rfl
        · exact Or.inl rfl
        · exact Or.inr rfl
      · right
        left
        simp only [hget]
        refine ⟨fun heq ↦ hmodified (hcurrent.mpr heq), _, ?_, rfl⟩
        exact vclock_setContent _ _
    · left
      simp only [reload, if_neg hkey, Dialogue.update, reloadRequest, Dialogue.run, Desk.answer,
        if_neg hplace]
      exact ⟨_, rfl⟩

/-- A fetch receives all versions or finds that there are none. -/
theorem fetch_run (bucketType : Option String) (options : Options) :
    (∃ o', o'.vclock = Shelf.clockBytes s.clock ∧
      (fetch bucket bucketType key options).run (Desk.answer bucket key) ⟨s, []⟩ =
        (.ok o', ⟨s, [.versions s.stamps]⟩)) ∨
    ((s.clock = 0 ∨ s.versions = []) ∧ ∃ o',
      (o'.vclock = [] ∨ o'.vclock = Shelf.clockBytes s.clock) ∧
      (fetch bucket bucketType key options).run (Desk.answer bucket key) ⟨s, []⟩ =
        (.error (.notFound o'), ⟨s, [.versions []]⟩)) := by
  simp only [fetch, Dialogue.query, fetchRequest, Dialogue.run, Desk.answer, and_self, if_true,
    List.nil_append]
  rcases s.get_cases {
      bucket := Utf8.encode bucket
      key := Utf8.encode key
      r := Options.wire options.r
      pr := Options.wire options.pr
      notFoundOk := some true
      deletedVclock := some true
      bucketType := textBytes bucketType } with
    ⟨hzero, hget⟩ | ⟨-, hmodified, -⟩ | ⟨-, -, hnil, vclock, hvclock, hget⟩ |
      ⟨-, -, c, contents, hget⟩
  · right
    simp only [hget]
    exact ⟨Or.inl hzero, _, Or.inl rfl, rfl⟩
  · cases hmodified
  · right
    simp only [hget]
    refine ⟨Or.inr hnil, _, ?_, rfl⟩
    rcases hvclock with rfl | rfl
    · exact Or.inl rfl
    · exact Or.inr rfl
  · left
    simp only [hget]
    exact ⟨_, vclock_setContent _ _, rfl⟩

theorem delete_run :
    ∃ r s', (do return (← o.delete, o) : Dialogue (Except ClientError Unit × Object)).run
        (Desk.answer bucket key) ⟨s, []⟩ = ((r, o), ⟨s', []⟩) ∧
      (s' = s ∨ s.clock + 1 < Bytes.wordCount 8 ∧ s' = s.clear) := by
  by_cases hkey : o.key.isEmpty
  · simp only [delete, if_pos hkey]
    exact ⟨_, s, rfl, Or.inl rfl⟩
  · simp only [delete, if_neg hkey, Dialogue.query, bind, Dialogue.bind, Dialogue.run, Desk.answer]
    by_cases hplace : o.deleteRequest.bucket = Utf8.encode bucket ∧
        o.deleteRequest.key = Utf8.encode key
    · rw [if_pos hplace]
      by_cases hclock : s.clock + 1 < Bytes.wordCount 8
      · rw [if_pos hclock]
        exact ⟨_, s.clear, rfl, Or.inr ⟨hclock, rfl⟩⟩
      · rw [if_neg hclock]
        exact ⟨_, s, rfl, Or.inl rfl⟩
    · rw [if_neg hplace]
      exact ⟨_, s, rfl, Or.inl rfl⟩

end Object

/-! ## What an object covers -/

inductive Shelf.Step (s : Shelf) : Shelf → Prop where
  | stay : Step s s
  | write (q : PutRequest) (hclock : s.clock + 1 < Bytes.wordCount 8) : Step s (s.write q)
  | clear (hclock : s.clock + 1 < Bytes.wordCount 8) : Step s s.clear

theorem Shelf.Step.sound {s s' : Shelf} (hstep : Shelf.Step s s') (h : s.Sound) : s'.Sound := by
  cases hstep with
  | stay => exact h
  | write q hclock => exact h.write q hclock
  | clear hclock => exact .clear hclock

namespace Writer

/-- Of the versions on the shelf, the object covers those that it knows or was told of. -/
structure Informed (w : Writer) (s : Shelf) : Prop where
  seen_le : w.seen ≤ s.clock
  known_le : ∀ n ∈ w.known, n ≤ s.clock
  named_le : ∀ n ∈ w.named, n ≤ s.clock
  covers : ∀ v ∈ s.versions,
    v.writtenAt ≤ w.seen ↔ v.writtenAt ∈ w.known ∨ v.writtenAt ∈ w.named

namespace Informed

variable {s s' : Shelf} {w : Writer}

theorem new (hs : s.Sound) : Informed {} s where
  seen_le := Nat.zero_le _
  known_le := by simp
  named_le := by simp
  covers v hv := by
    have hpos := hs.stamp_pos v hv
    simp [seen, Nat.ne_of_gt hpos]

/-- Whatever happens to the shelf, an object covers nothing new by it. -/
theorem step (h : w.Informed s) (hstep : Shelf.Step s s') : w.Informed s' := by
  obtain ⟨hseen, hknown, hnamed, hcovers⟩ := h
  cases hstep with
  | stay => exact ⟨hseen, hknown, hnamed, hcovers⟩
  | write q hclock =>
      have hnext : (s.write q).clock = s.clock + 1 := rfl
      refine ⟨by omega, ?_, ?_, ?_⟩
      · intro n hn
        have := hknown n hn
        omega
      · intro n hn
        have := hnamed n hn
        omega
      · intro v hv
        rcases Shelf.Sound.mem_write hv with ⟨hv, -⟩ | hlast
        · exact hcovers v hv
        · constructor
          · intro hle
            omega
          · rintro (hmem | hmem)
            · have := hknown _ hmem
              omega
            · have := hnamed _ hmem
              omega
  | clear hclock =>
      have hnext : s.clear.clock = s.clock + 1 := rfl
      refine ⟨by omega, ?_, ?_, by simp [Shelf.clear]⟩
      · intro n hn
        have := hknown n hn
        omega
      · intro n hn
        have := hnamed n hn
        omega

/-- The object that has just been stored was told of every version. -/
theorem stored (h : w.Informed s) (hs : s.Sound) (hclock : s.clock + 1 < Bytes.wordCount 8)
    (q : PutRequest) {o : Object} (ho : o.vclock = Shelf.clockBytes (s.clock + 1)) :
    Informed { object := some o, known := w.known ++ [s.clock + 1], named := (s.write q).stamps }
      (s.write q) := by
  have hsound := hs.write q hclock
  have hnext : (s.write q).clock = s.clock + 1 := rfl
  have hseen : Shelf.parseClock o.vclock = s.clock + 1 := by
    rw [ho, Shelf.parseClock_clockBytes hclock]
  refine ⟨?_, ?_, ?_, ?_⟩
  · simp [seen, hseen, hnext]
  · intro n hn
    rcases List.mem_append.mp hn with hn | hn
    · have := h.known_le n hn
      omega
    · obtain rfl := List.mem_singleton.mp hn
      omega
  · intro n hn
    obtain ⟨v, hv, rfl⟩ := List.mem_map.mp hn
    exact hsound.stamp_le v hv
  · intro v hv
    have hle : v.writtenAt ≤ s.clock + 1 := hsound.stamp_le v hv
    have hmem : v.writtenAt ∈ (s.write q).stamps := List.mem_map_of_mem hv
    simp [seen, hseen, hle, hmem]

theorem received (h : w.Informed s) (hs : s.Sound) {o : Object}
    (ho : o.vclock = Shelf.clockBytes s.clock) :
    Informed { object := some o, known := w.known ++ s.stamps, named := [] } s := by
  have hseen : Shelf.parseClock o.vclock = s.clock := by
    rw [ho, Shelf.parseClock_clockBytes hs.clock_lt]
  refine ⟨?_, ?_, by simp, ?_⟩
  · simp [seen, hseen]
  · intro n hn
    rcases List.mem_append.mp hn with hn | hn
    · exact h.known_le n hn
    · obtain ⟨v, hv, rfl⟩ := List.mem_map.mp hn
      exact hs.stamp_le v hv
  · intro v hv
    have hle := hs.stamp_le v hv
    have hmem : v.writtenAt ∈ s.stamps := List.mem_map_of_mem hv
    simp [seen, hseen, hle, hmem]

theorem none_left (h : w.Informed s) (hs : s.Sound) (hnone : s.clock = 0 ∨ s.versions = [])
    {o : Object} (ho : o.vclock = [] ∨ o.vclock = Shelf.clockBytes s.clock) :
    Informed { object := some o, known := w.known ++ [], named := [] } s := by
  have hempty : s.versions = [] := by
    rcases hnone with hzero | hempty
    · apply List.eq_nil_iff_forall_not_mem.mpr
      intro v hv
      have hpos := hs.stamp_pos v hv
      have hle := hs.stamp_le v hv
      omega
    · exact hempty
  have hseen : Shelf.parseClock o.vclock ≤ s.clock := by
    rcases ho with ho | ho
    · rw [ho]
      exact Nat.zero_le _
    · exact Nat.le_of_eq (by rw [ho, Shelf.parseClock_clockBytes hs.clock_lt])
  refine ⟨hseen, ?_, by simp, by simp [hempty]⟩
  rw [List.append_nil]
  exact h.known_le

theorem alter (h : w.Informed s) {object : Option Object}
    (hseen : (object.map fun o ↦ Shelf.parseClock o.vclock) =
      w.object.map fun o ↦ Shelf.parseClock o.vclock) : Informed { w with object } s := by
  have hsame : seen { w with object } = w.seen := congrArg (Option.getD · 0) hseen
  exact ⟨hsame ▸ h.seen_le, h.known_le, h.named_le, hsame ▸ h.covers⟩

end Informed

/-- What a deed leads to is sound where it started from something sound. -/
structure Follows (s s' : Shelf) (w' : Writer) : Prop where
  step : Shelf.Step s s'
  informed : w'.Informed s'

variable {s : Shelf} {w : Writer} (bucket key : String)

theorem fetch_follows (hs : s.Sound) (bucketType : Option String)
    (options : Options) :
    Follows s (w.fetch bucket key bucketType options s).2.2
      (w.fetch bucket key bucketType options s).2.1 := by
  unfold fetch
  rcases Object.fetch_run bucket key s bucketType options with ⟨o', ho, hrun⟩ | ⟨hnone, o', ho, hrun⟩
  · rw [hrun]
    exact ⟨.stay, (Informed.new hs).received hs ho⟩
  · rw [hrun]
    exact ⟨.stay, (Informed.new hs).none_left hs hnone ho⟩

theorem store_follows (h : w.Informed s) (hs : s.Sound) :
    Follows s (w.use bucket key Object.store s).2.2 (w.use bucket key Object.store s).2.1 := by
  unfold use
  cases ho : w.object with
  | none => exact ⟨.stay, h⟩
  | some o =>
      dsimp only
      rcases o.store_run bucket key s with ⟨e, hrun⟩ | ⟨hclock, o', q, hclock', -, hrun⟩
      · rw [hrun]
        exact ⟨.stay, h.alter (by rw [ho])⟩
      · rw [hrun]
        exact ⟨.write q hclock, h.stored hs hclock q hclock'⟩

theorem reload_follows (h : w.Informed s) (hs : s.Sound) :
    Follows s (w.use bucket key Object.reload s).2.2 (w.use bucket key Object.reload s).2.1 := by
  unfold use
  cases ho : w.object with
  | none => exact ⟨.stay, h⟩
  | some o =>
      dsimp only
      rcases o.reload_run bucket key s with
        ⟨e, hrun⟩ | ⟨-, -, hrun⟩ | ⟨-, o', hclock, hrun⟩ | ⟨hnone, o', e, hclock, hrun⟩
      · rw [hrun]
        exact ⟨.stay, h.alter (by rw [ho])⟩
      · rw [hrun]
        exact ⟨.stay, h.alter (by rw [ho])⟩
      · rw [hrun]
        exact ⟨.stay, h.received hs hclock⟩
      · rw [hrun]
        exact ⟨.stay, h.none_left hs hnone hclock⟩

theorem delete_follows (h : w.Informed s) :
    Follows s (w.use bucket key (fun o ↦ do return (← o.delete, o)) s).2.2
      (w.use bucket key (fun o ↦ do return (← o.delete, o)) s).2.1 := by
  unfold use
  cases ho : w.object with
  | none => exact ⟨.stay, h⟩
  | some o =>
      dsimp only
      obtain ⟨r, s', hrun, hstep⟩ := o.delete_run bucket key s
      have hsame : Informed { w with object := some o } s := h.alter (by rw [ho])
      have hfollows : Shelf.Step s s' := by
        rcases hstep with rfl | ⟨hclock, rfl⟩
        · exact .stay
        · exact .clear hclock
      rw [hrun]
      cases r with
      | ok u => exact ⟨hfollows, hsame.step hfollows⟩
      | error e => exact ⟨hfollows, hsame.step hfollows⟩

theorem perform_follows (h : w.Informed s) (hs : s.Sound) (d : Deed) :
    Follows s (w.perform bucket key s d).2.2 (w.perform bucket key s d).2.1 := by
  cases d with
  | fetch bucketType options => exact fetch_follows bucket key hs bucketType options
  | edit f => exact ⟨.stay, h.alter (by cases w.object <;> rfl)⟩
  | resolve resolver => exact ⟨.stay, h.alter (by cases w.object <;> rfl)⟩
  | reload => exact reload_follows bucket key h hs
  | store => exact store_follows bucket key h hs
  | delete => exact delete_follows bucket key h

end Writer

/-! ## Runs -/

/-- A shelf and the callers around it. -/
structure Scene where
  shelf : Shelf := {}
  writers : Nat → Writer := fun _ ↦ {}

namespace Scene

def step (bucket key : String) (s : Scene) (move : Nat × Deed) : Scene :=
  let (_, w, shelf) := (s.writers move.1).perform bucket key s.shelf move.2
  { shelf, writers := fun i ↦ if i = move.1 then w else s.writers i }

def run (bucket key : String) (moves : List (Nat × Deed)) : Scene :=
  moves.foldl (step bucket key) {}

def succeeds (bucket key : String) (s : Scene) (i : Nat) (d : Deed) : Bool :=
  ((s.writers i).perform bucket key s.shelf d).1

structure Sound (s : Scene) : Prop where
  shelf : s.shelf.Sound
  informed : ∀ i, (s.writers i).Informed s.shelf

theorem Sound.step {s : Scene} (h : s.Sound) (bucket key : String) (move : Nat × Deed) :
    (s.step bucket key move).Sound := by
  obtain ⟨hstep, hinformed⟩ := Writer.perform_follows bucket key (h.informed move.1) h.shelf move.2
  refine ⟨hstep.sound h.shelf, ?_⟩
  intro i
  unfold Scene.step
  dsimp only
  split
  · exact hinformed
  · exact (h.informed i).step hstep

theorem sound_run (bucket key : String) (moves : List (Nat × Deed)) :
    (run bucket key moves).Sound := by
  have hrun {s : Scene} (h : s.Sound) : (moves.foldl (step bucket key) s).Sound := by
    induction moves generalizing s with
    | nil => exact h
    | cons move moves ih => exact ih (h.step bucket key move)
  exact hrun ⟨.empty, fun _ ↦ .new .empty⟩

/-! ## Lost updates -/

/-- A store discards exactly the versions that its object covers. -/
theorem discarded_iff {s : Scene} (h : s.Sound) (bucket key : String) (i : Nat) {v : Version}
    (hv : v ∈ s.shelf.versions) :
    v ∉ (s.step bucket key (i, .store)).shelf.versions ↔
      s.succeeds bucket key i .store = true ∧
        (v.writtenAt ∈ (s.writers i).known ∨ v.writtenAt ∈ (s.writers i).named) := by
  have hcovers := (h.informed i).covers v hv
  unfold step succeeds Writer.perform Writer.use
  cases ho : (s.writers i).object with
  | none => simp [hv]
  | some o =>
      have hseen : (s.writers i).seen = Shelf.parseClock o.vclock := by
        rw [Writer.seen, ho]
        rfl
      dsimp only
      rcases o.store_run bucket key s.shelf with ⟨e, hrun⟩ | ⟨hclock, o', q, -, hq, hrun⟩
      · rw [hrun]
        simp [hv]
      · rw [hrun]
        dsimp only
        rw [h.shelf.not_mem_write_iff hv, hq, Shelf.parseClock_nonEmpty, ← hseen, hcovers]
        simp

theorem shelf_reload (bucket key : String) (s : Scene) (i : Nat) :
    (s.step bucket key (i, .reload)).shelf = s.shelf := by
  unfold step Writer.perform Writer.use
  cases ho : (s.writers i).object with
  | none => rfl
  | some o =>
      dsimp only
      rcases o.reload_run bucket key s.shelf with
        ⟨e, hrun⟩ | ⟨-, -, hrun⟩ | ⟨-, o', -, hrun⟩ | ⟨-, o', e, -, hrun⟩ <;> rw [hrun]

theorem missed_iff {s : Scene} (bucket key : String) (i : Nat) {v : Version}
    (hv : v ∈ s.shelf.versions) (hsucceeds : s.succeeds bucket key i .reload = true) :
    v.writtenAt ∉ ((s.step bucket key (i, .reload)).writers i).known ↔
      (∃ o, (s.writers i).object = some o ∧ o.vclock = Shelf.clockBytes s.shelf.clock) ∧
        v.writtenAt ∉ (s.writers i).known := by
  unfold succeeds Writer.perform Writer.use at hsucceeds
  unfold step Writer.perform Writer.use
  cases ho : (s.writers i).object with
  | none => simp [ho] at hsucceeds
  | some o =>
      rw [ho] at hsucceeds
      dsimp only at hsucceeds ⊢
      rw [if_pos rfl]
      rcases o.reload_run bucket key s.shelf with
        ⟨e, hrun⟩ | ⟨hcurrent, -, hrun⟩ | ⟨hstale, o', -, hrun⟩ | ⟨-, o', e, -, hrun⟩
      · rw [hrun] at hsucceeds
        cases hsucceeds
      · rw [hrun]
        simp [Writer.hear, hcurrent]
      · have hmem : v.writtenAt ∈ s.shelf.stamps := List.mem_map_of_mem hv
        rw [hrun]
        simp [Writer.hear, hstale, hmem]
      · rw [hrun] at hsucceeds
        cases hsucceeds

/-- A store discards the version, though its object has neither written nor received it. -/
def Loses (bucket key : String) (s : Scene) (i : Nat) (v : Version) : Prop :=
  v ∈ s.shelf.versions ∧ v ∉ (s.step bucket key (i, .store)).shelf.versions ∧
    v.writtenAt ∉ (s.writers i).known

/-- After a successful reload the version is on the shelf, and the object has neither written nor
received it. -/
def Misses (bucket key : String) (s : Scene) (i : Nat) (v : Version) : Prop :=
  s.succeeds bucket key i .reload = true ∧
    v ∈ (s.step bucket key (i, .reload)).shelf.versions ∧
    v.writtenAt ∉ ((s.step bucket key (i, .reload)).writers i).known

def Current (s : Scene) (i : Nat) : Prop :=
  ∃ o, (s.writers i).object = some o ∧ o.vclock = Shelf.clockBytes s.shelf.clock

/-- In whatever order callers take their turns: a store loses exactly the versions that the reply to
the last write of its object has named and that the object never received, and as long as the
clock stays the same, a reload misses exactly these. -/
theorem lost_iff_blind (bucket key : String) (past : List (Nat × Deed)) (i : Nat) (v : Version) :
    ((run bucket key past).Loses bucket key i v ↔
      (run bucket key past).succeeds bucket key i .store = true ∧
        v ∈ ((run bucket key past).writers i).blind (run bucket key past).shelf) ∧
    ((run bucket key past).Misses bucket key i v ↔
      (run bucket key past).succeeds bucket key i .reload = true ∧
        (run bucket key past).Current i ∧
          v ∈ ((run bucket key past).writers i).blind (run bucket key past).shelf) := by
  have h := sound_run bucket key past
  generalize run bucket key past = s at h ⊢
  have hblind : v ∈ (s.writers i).blind s.shelf ↔ v ∈ s.shelf.versions ∧
      v.writtenAt ∈ (s.writers i).named ∧ v.writtenAt ∉ (s.writers i).known := by
    simp [Writer.blind]
  rw [hblind]
  constructor
  · constructor
    · rintro ⟨hv, hgone, hunknown⟩
      obtain ⟨hsucceeds, hknown | hnamed⟩ := (discarded_iff h bucket key i hv).mp hgone
      · exact absurd hknown hunknown
      · exact ⟨hsucceeds, hv, hnamed, hunknown⟩
    · rintro ⟨hsucceeds, hv, hnamed, hunknown⟩
      exact ⟨hv, (discarded_iff h bucket key i hv).mpr ⟨hsucceeds, Or.inr hnamed⟩, hunknown⟩
  · rw [Misses, shelf_reload]
    constructor
    · rintro ⟨hsucceeds, hv, hmissed⟩
      obtain ⟨hcurrent, hunknown⟩ := (missed_iff bucket key i hv hsucceeds).mp hmissed
      -- The clock of the shelf covers every version on it.
      have hcovered : v.writtenAt ≤ (s.writers i).seen := by
        obtain ⟨o, ho, hclock⟩ := hcurrent
        have hseen : (s.writers i).seen = s.shelf.clock := by
          rw [Writer.seen, ho, Option.map_some, hclock,
            Shelf.parseClock_clockBytes h.shelf.clock_lt, Option.getD_some]
        exact hseen ▸ h.shelf.stamp_le v hv
      rcases ((h.informed i).covers v hv).mp hcovered with hknown | hnamed
      · exact absurd hknown hunknown
      · exact ⟨hsucceeds, hcurrent, hv, hnamed, hunknown⟩
    · rintro ⟨hsucceeds, hcurrent, hv, -, hunknown⟩
      exact ⟨hsucceeds, hv, (missed_iff bucket key i hv hsucceeds).mpr ⟨hcurrent, hunknown⟩⟩

/-- Two callers have fetched a key that holds nothing; both store, and the first one stores again. -/
def bothStore : List (Nat × Deed) :=
  [(0, .fetch none {}), (1, .fetch none {}), (1, .store), (0, .store)]

/-- When the first caller stores once more, it loses what the second one wrote. -/
theorem loses_bothStore : ∃ v, (run "b" "k" bothStore).Loses "b" "k" 0 v := by
  refine ⟨(run "b" "k" bothStore).shelf.versions.head (by decide), ?_, ?_, ?_⟩
  · decide
  · decide
  · decide

end Scene
end ReplicaClient
