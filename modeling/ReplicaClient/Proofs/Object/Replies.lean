import ReplicaClient.Object.Store
import ReplicaClient.Proofs.Text.Utf8

/-!
# What replies change in an object

The reply to a write changes only the marks that the store sets: the clock, the tag and the time.
The reply to a read brings a clock, and a value with its metadata or siblings.
-/

namespace ReplicaClient

theorem nonEmpty_eq_some (bs : Bytes) {bs' : Bytes} (h : bs' ≠ []) :
    nonEmpty bs = some bs' ↔ bs = bs' := by
  cases bs with
  | nil => exact ⟨nofun, fun heq ↦ absurd heq.symm h⟩
  | cons b bs => exact Option.some_inj

theorem nonEmpty_of_ne {bs : Bytes} (h : bs ≠ []) : nonEmpty bs = some bs :=
  (nonEmpty_eq_some bs h).mpr rfl

namespace Pair

@[simp] theorem texts_ofTexts (key value : String) : (ofTexts key value).texts = (key, value) := by
  unfold ofTexts texts
  dsimp only [Option.getD_some]
  rw [Utf8.decodeLossy_encode, Utf8.decodeLossy_encode]

end Pair

namespace Object

variable (o : Object)

theorem vclock_afterPut (reply : PutReply) :
    (o.afterPut reply).vclock = reply.vclock.getD [] := by
  unfold afterPut
  dsimp only
  split <;> split <;> rfl

/-- A write does not touch a conflict. -/
theorem afterPut_keeps (reply : PutReply) :
    (o.afterPut reply).state = o.state ∧ (o.afterPut reply).siblings = o.siblings := by
  rw [afterPut]
  dsimp only
  split <;> split <;> exact ⟨rfl, rfl⟩

theorem vclock_setContent (contents : List Content) :
    (o.setContent contents).vclock = o.vclock := by
  unfold setContent
  split <;> rfl

theorem afterPut_eq {o : Object} (hkey : o.key ≠ "") (reply : PutReply) :
    ∃ vclock vtag lastMod lastModUsecs, o.afterPut reply =
      { o with vclock := vclock, vtag := vtag, lastMod := lastMod, lastModUsecs := lastModUsecs } := by
  have hempty : ¬o.key.isEmpty = true := by
    rw [String.isEmpty_iff]
    exact hkey
  unfold afterPut
  dsimp only
  rw [if_neg hempty]
  split
  · exact ⟨_, _, _, _, rfl⟩
  · exact ⟨_, _, _, _, rfl⟩

end Object
end ReplicaClient
