import ReplicaClient.Proofs.Object.Journal

/-!
# Which clock a request offers

An object has the clock of the last reply that was heard for it, and every write and every reload
offers this clock.  It is the last clock that is known as long as every reply names one.  A reply
that names none empties the object's clock, and what comes next offers none.
-/

namespace ReplicaClient

/-! ## What is heard and what is known -/

namespace Journal

/-- The clock of the last reply, which is empty if that reply did not name one. -/
def lastHeard (journal : Journal) : Option Bytes :=
  journal.last Entry.clockHeard?

/-- The last clock that a reply has named. -/
def lastKnown (journal : Journal) : Option Bytes :=
  journal.last fun e ↦ e.clockHeard?.bind nonEmpty

/-- What was named last is known, and without replies nothing is. -/
theorem lastKnown_of_lastHeard {journal : Journal} (h : journal.lastHeard ≠ some []) :
    journal.lastKnown = journal.lastHeard := by
  induction journal using List.reverseRecOn with
  | nil => rfl
  | append_singleton journal e ih =>
      rw [lastHeard, last_concat] at h
      rw [lastKnown, last_concat, lastHeard, last_concat]
      cases hheard : e.clockHeard? with
      | none =>
          rw [hheard, Option.none_or] at h
          exact ih h
      | some clock =>
          have hne : clock ≠ [] := by
            rintro rfl
            exact h (by rw [hheard, Option.some_or])
          rw [Option.bind_some, nonEmpty_of_ne hne, Option.some_or, Option.some_or]

/-- The last clock that is known is the last one heard, unless that is empty. -/
theorem bind_lastHeard_eq_iff (journal : Journal) :
    journal.lastHeard.bind nonEmpty = journal.lastKnown ↔
      journal.lastHeard ≠ some [] ∨ journal.lastKnown = none := by
  constructor
  · intro h
    by_cases hempty : journal.lastHeard = some []
    · right
      rw [← h, hempty]
      rfl
    · exact Or.inl hempty
  · rintro (h | h)
    · rw [lastKnown_of_lastHeard h]
      cases hheard : journal.lastHeard with
      | none => rfl
      | some clock =>
          rw [hheard] at h
          exact nonEmpty_of_ne fun hclock ↦ h (congrArg some hclock)
    · cases hheard : journal.lastHeard with
      | none => exact h.symm
      | some clock =>
          by_cases hclock : clock = []
          · rw [h, hclock]
            rfl
          · have hne : journal.lastHeard ≠ some [] := by
              rw [hheard]
              exact fun heq ↦ hclock (Option.some.inj heq)
            rw [lastKnown_of_lastHeard hne, hheard] at h
            cases h

/-- An entry of a longer journal was there before, or is the new one. -/
theorem split_concat {α : Type} {journal past rest : List α} {e e' : α}
    (h : journal ++ [e'] = past ++ e :: rest) :
    (journal = past ∧ e' = e) ∨ ∃ rest', journal = past ++ e :: rest' := by
  rcases List.eq_nil_or_concat rest with rfl | ⟨rest', last, rfl⟩
  · left
    obtain ⟨hpast, hlast⟩ := List.append_inj' h rfl
    exact ⟨hpast, List.singleton_inj.mp hlast⟩
  · right
    refine ⟨rest', ?_⟩
    rw [List.concat_eq_append, ← List.cons_append, ← List.append_assoc] at h
    exact (List.append_inj' h rfl).1

end Journal

/-! ## The clock of an object -/

namespace Life

/-- The object has the clock that was heard last, and so had every request. -/
structure Clocked (l : Life) : Prop where
  vclock : l.object.vclock = l.journal.lastHeard.getD []
  offers : ∀ (past : Journal) e rest, l.journal = past ++ e :: rest →
    e.Offers (past.lastHeard.getD [])

namespace Clocked

variable {l : Life}

theorem new (bucket : String) (bucketType : Option String) (key : String) :
    (new bucket bucketType key).Clocked where
  vclock := rfl
  offers past e rest h := by
    cases past <;> cases h

/-- The next request offers the clock that the object has. -/
theorem offers_concat (h : l.Clocked) {e : Entry} (he : e.Offers l.object.vclock) :
    ∀ (past : Journal) e' rest, l.journal ++ [e] = past ++ e' :: rest →
      e'.Offers (past.lastHeard.getD []) := by
  intro past e' rest hsplit
  rcases Journal.split_concat hsplit with ⟨rfl, rfl⟩ | ⟨rest', hbefore⟩
  · rw [← h.vclock]
    exact he
  · exact h.offers past e' rest' hbefore

theorem heard (h : l.Clocked) {e : Entry} {o : Object} (he : e.Offers l.object.vclock)
    (hheard : e.clockHeard? = some o.vclock) : Clocked ⟨o, l.journal ++ [e]⟩ where
  vclock := by
    rw [Journal.lastHeard, Journal.last_concat_of_some hheard]
    rfl
  offers := h.offers_concat he

theorem turn {l' : Life} (h : l.Clocked) (hturn : Turn l l') : l'.Clocked := by
  cases hturn with
  | edit o hclock => exact ⟨hclock.trans h.vclock, h.offers⟩
  | settle o hclock => exact ⟨hclock.trans h.vclock, h.offers⟩
  | retain o hclock => exact ⟨hclock.trans h.vclock, h.offers⟩
  | ask e hoffers hheard =>
      refine ⟨?_, h.offers_concat hoffers⟩
      rw [Journal.lastHeard, Journal.last_concat_of_none hheard]
      exact h.vclock
  | store e o hoffers hheard => exact h.heard hoffers hheard
  | receive e o contents hoffers hheard => exact h.heard hoffers hheard

end Clocked

/-- Every clock that is offered is the one that the last reply named.  It is the last one known just
if that reply named one, or if none is known. -/
theorem offered_iff_known (peer : Peer) (bucket : String) (bucketType : Option String)
    (key : String) (actions : List Action) (past rest : Journal) (e : Entry)
    (c : Option Bytes)
    (hsplit : ((new bucket bucketType key).run peer actions).journal = past ++ e :: rest)
    (hsent : e.clockSent? = some c) :
    c = past.lastHeard.bind nonEmpty ∧
      (c = past.lastKnown ↔ past.lastHeard ≠ some [] ∨ past.lastKnown = none) := by
  have h : ((new bucket bucketType key).run peer actions).Clocked :=
    run_of_turns _ peer (fun _ _ hclocked hturn ↦ Clocked.turn hclocked hturn)
      (Clocked.new bucket bucketType key) actions
  have hlast : c = past.lastHeard.bind nonEmpty := by
    rw [h.offers past e rest hsplit c hsent]
    cases past.lastHeard <;> rfl
  refine ⟨hlast, ?_⟩
  rw [hlast]
  exact past.bind_lastHeard_eq_iff

/-- A peer that names a clock to readers only. -/
def curtPeer : Peer where
  reply _
    | .get _ => .ok { contents := [{ value := [120] }], vclock := some [1] }
    | q => .ok (q.reply [])
  notFound_ne past q o h := by
    cases q <;> cases h

/-- An object is fetched and stored. -/
def curtPast : Life :=
  (new "b" none "k").run curtPeer [.fetch {}, .store]

/-- Then it is stored once more. -/
def curtStore : Entry :=
  ⟨.store, .put curtPast.object.putRequest, .ok {}⟩

/-- The second write offers no clock, although one is known. -/
theorem offered_iff_known_curt :
    ((new "b" none "k").run curtPeer [.fetch {}, .store, .store]).journal =
        curtPast.journal ++ [curtStore] ∧
      curtStore.clockSent? = some none ∧
      (none = curtPast.journal.lastHeard.bind nonEmpty ∧
        (none = curtPast.journal.lastKnown ↔
          curtPast.journal.lastHeard ≠ some [] ∨ curtPast.journal.lastKnown = none)) ∧
      curtPast.journal.lastHeard = some [] ∧ curtPast.journal.lastKnown = some [1] := by
  have hsplit : ((new "b" none "k").run curtPeer [.fetch {}, .store, .store]).journal =
      curtPast.journal ++ [curtStore] := rfl
  have hsent : curtStore.clockSent? = some none := rfl
  exact ⟨hsplit, hsent, offered_iff_known curtPeer "b" none "k" [.fetch {}, .store, .store]
    curtPast.journal [] curtStore none hsplit hsent, rfl, rfl⟩

end Life
end ReplicaClient
