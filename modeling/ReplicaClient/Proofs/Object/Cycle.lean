import ReplicaClient.Proofs.Object.Journal

/-!
# The cycle of a conflict

An object is in conflict while it has siblings, and these are the contents that a read has brought.
Only another read or a resolver that succeeds ends the conflict; a resolver that fails leaves it as
it was, to be resolved again.
-/

namespace ReplicaClient

/-! ## What reads have shown -/

namespace Journal

/-- The last contents that a reply to a read has brought. -/
def lastShown (journal : Journal) : Option (List Content) :=
  journal.last Entry.shown?

/-- The same, but for replies that say that nothing has changed. -/
def lastUnmarked (journal : Journal) : Option (List Content) :=
  journal.last fun e ↦ if e.saysUnchanged then none else e.contents?

theorem lastShown_eq_lastUnmarked {journal : Journal}
    (h : ∀ e ∈ journal, e.call = .fetch → e.saysUnchanged = false) :
    journal.lastShown = journal.lastUnmarked := by
  apply last_congr
  intro e he
  rw [Entry.shown?, Entry.disregarded]
  by_cases hcall : e.call = .fetch
  · rw [h e he hcall, Bool.and_false]
  · rw [decide_eq_true hcall, Bool.true_and]

end Journal

/-! ## Objects in conflict -/

namespace Object

/-- Siblings are counted, copied and adopted as this list. -/
structure Refers (o : Object) (versions : List Sibling) : Prop where
  siblingCount : o.siblingCount = versions.length
  copySiblingsInto : ∀ slots, o.copySiblingsInto slots =
    if slots.length = versions.length then .ok versions
    else .error (.siblingCountMismatch versions.length slots.length)
  adoptSibling_lt : ∀ index (h : index < versions.length),
    o.adoptSibling index = (true, o.adopt versions[index])
  adoptSibling_ge : ∀ index, versions.length ≤ index → o.adoptSibling index = (false, o)

theorem refers_filter (o : Object) : o.Refers (o.siblings.filter fun s ↦ s.data ≠ []) := by
  have hversions : o.siblings.filter (fun s ↦ s.data ≠ []) = o.versions := by
    apply List.filter_congr
    intro s _
    rw [Sibling.isEmpty]
    cases s.data <;> rfl
  rw [hversions]
  constructor
  · rfl
  · exact fun slots ↦ rfl
  · intro index hlt
    rw [adoptSibling, List.getElem?_eq_getElem hlt]
  · intro index hle
    rw [adoptSibling, List.getElem?_eq_none hle]

variable {ρ : Type} {o : Object}

/-- Where there is no conflict, no resolver is asked. -/
theorem resolve_of_clean (h : o.state = .clean) (resolver : Resolver ρ) :
    o.resolve resolver = (none, .ok (), o) := by
  rw [resolve, conflict, h]
  rfl

/-- In a conflict the resolver is asked. -/
theorem resolve_of_ne_clean (h : o.state ≠ .clean) (resolver : Resolver ρ) :
    (o.resolve resolver).1 =
      some (resolver o.siblingCount { o with state := .resolving }).1 := by
  rw [resolve, conflict, if_pos (decide_eq_true h)]
  rcases resolver o.siblingCount { o with state := .resolving } with ⟨record, _ | _, o'⟩ <;> rfl

/-- A resolver that fails leaves the conflict as it was. -/
structure Retained (o o' : Object) : Prop where
  siblings : o'.siblings = o.siblings
  state : o'.state = .conflicted
  siblingCount : o'.siblingCount = o.siblingCount

theorem resolve_error (merger : Merger ρ) (h : o.state ≠ .clean) {e : ClientError}
    (herror : (o.resolve merger.resolver).2.1 = .error e) :
    o.Retained (o.resolve merger.resolver).2.2 := by
  rw [resolve, conflict, if_pos (decide_eq_true h)] at herror ⊢
  obtain ⟨value, hvalue⟩ := merger.exists_adopt o.siblingCount { o with state := .resolving }
  cases hrun : merger.resolver o.siblingCount { o with state := .resolving } with
  | mk record rest =>
      obtain ⟨result, o'⟩ := rest
      rw [hrun] at hvalue herror
      obtain rfl : o' = _ := hvalue
      cases result with
      | error e' => exact ⟨rfl, rfl, rfl⟩
      | ok u => cases herror

theorem resolve_ok (merger : Merger ρ) (h : o.state ≠ .clean)
    (hok : (o.resolve merger.resolver).2.1 = .ok ()) :
    (o.resolve merger.resolver).2.2.state = .clean ∧
      (o.resolve merger.resolver).2.2.siblings = [] := by
  rw [resolve, conflict, if_pos (decide_eq_true h)] at hok ⊢
  rcases hrun : merger.resolver o.siblingCount { o with state := .resolving } with
    ⟨record, result, o'⟩
  rw [hrun] at hok
  cases result with
  | error e => cases hok
  | ok u => exact ⟨rfl, rfl⟩

end Object

/-! ## Lives -/

namespace Life

/-- An object has no siblings, or those that were shown last. -/
def Settled (l : Life) : Prop :=
  l.object.state = .clean ∧ l.object.siblings = [] ∨
    l.object.state = .conflicted ∧ ∃ contents, l.journal.lastShown = some contents ∧
      2 ≤ contents.length ∧ l.object.siblings = contents.map Sibling.ofContent

namespace Settled

variable {l : Life}

theorem congr {o : Object} {journal : Journal} (h : l.Settled) (hstate : o.state = l.object.state)
    (hsiblings : o.siblings = l.object.siblings) (hshown : journal.lastShown = l.journal.lastShown) :
    Settled ⟨o, journal⟩ := by
  rw [Settled, hstate, hsiblings, hshown]
  exact h

theorem of_holds {o : Object} {contents : List Content} (h : o.Holds contents) {e : Entry}
    (hshown : e.shown? = (some contents).filter (· ≠ [])) (past : Journal) :
    Settled ⟨o, past ++ [e]⟩ := by
  rw [Object.Holds] at h
  split at h
  · exact Or.inl h
  · rename_i hlen
    have hne : contents ≠ [] := by
      rintro rfl
      exact hlen (Nat.zero_le 1)
    have hsome : e.shown? = some contents := by
      rw [hshown, Option.filter_some, if_pos (decide_eq_true hne)]
    refine Or.inr ⟨h.1, contents, ?_, Nat.lt_of_not_le hlen, h.2⟩
    exact Journal.last_concat_of_some hsome past

theorem turn {l' : Life} (h : l.Settled) (hturn : Turn l l') : l'.Settled := by
  cases hturn with
  | edit o hclock hstate hsiblings => exact h.congr hstate hsiblings rfl
  | settle o hclock hstate hsiblings => exact Or.inl ⟨hstate, hsiblings⟩
  | retain o hclock hconflict hstate hsiblings =>
      rcases h with ⟨hclean, -⟩ | ⟨-, contents, hshown, hlen, hcontents⟩
      · exact absurd hclean hconflict
      · exact Or.inr ⟨hstate, contents, hshown, hlen, hsiblings.trans hcontents⟩
  | ask e hoffers hheard hshown => exact h.congr rfl rfl (Journal.last_concat_of_none hshown _)
  | store e o hoffers hheard hshown hstate hsiblings =>
      exact h.congr hstate hsiblings (Journal.last_concat_of_none hshown _)
  | receive e o contents hoffers hheard hshown hholds => exact of_holds hholds hshown _

end Settled

/-- What holds of conflicts at any time of a life. -/
structure InCycle (l : Life) : Prop where
  state_ne_resolving : l.object.state ≠ .resolving
  clean_iff : l.object.state = .clean ↔ l.object.siblings = []
  /-- The siblings are the contents, in order, that were shown last. -/
  conflicted_iff : l.object.state = .conflicted ↔ ∃ contents,
    l.journal.lastShown = some contents ∧ 2 ≤ contents.length ∧
      l.object.siblings = contents.map Sibling.ofContent
  /-- These are not marked as unchanged, unless a fetch was answered so. -/
  unmarked : (∀ e ∈ l.journal, e.call = .fetch → e.saysUnchanged = false) →
    l.journal.lastShown = l.journal.lastUnmarked
  /-- Siblings without data do not take part. -/
  refers : l.object.Refers (l.object.siblings.filter fun s ↦ s.data ≠ [])
  /-- A resolver that fails leaves the conflict as it was, and is asked again the next time. -/
  fails : ∀ (ρ : Type) (merger : Merger ρ) (e : ClientError), l.object.state = .conflicted →
    (l.object.resolve merger.resolver).2.1 = .error e →
      l.object.Retained (l.object.resolve merger.resolver).2.2 ∧
        ((l.object.resolve merger.resolver).2.2.resolve merger.resolver).1 =
          some (merger.resolver l.object.siblingCount
            { (l.object.resolve merger.resolver).2.2 with state := .resolving }).1
  succeeds : ∀ (ρ : Type) (merger : Merger ρ), l.object.state = .conflicted →
    (l.object.resolve merger.resolver).2.1 = .ok () →
      (l.object.resolve merger.resolver).2.2.state = .clean ∧
        (l.object.resolve merger.resolver).2.2.siblings = []
  /-- Without a conflict no resolver is asked and nothing changes. -/
  idle : ∀ (ρ : Type) (resolver : Resolver ρ), l.object.state = .clean →
    l.object.resolve resolver = (none, .ok (), l.object)

theorem Settled.clean_iff {l : Life} (h : l.Settled) :
    l.object.state = .clean ↔ l.object.siblings = [] := by
  rcases h with ⟨hstate, hsiblings⟩ | ⟨hstate, contents, -, hlen, hsiblings⟩
  · exact iff_of_true hstate hsiblings
  · apply iff_of_false
    · rw [hstate]
      exact ConflictState.noConfusion
    · rw [hsiblings, List.map_eq_nil_iff]
      rintro rfl
      exact absurd hlen (by decide)

/-- Whatever happens to an object and whatever its peer answers, its conflicts come and go as they
should. -/
theorem inCycle_run (peer : Peer) (bucket : String) (bucketType : Option String) (key : String)
    (actions : List Action) : ((new bucket bucketType key).run peer actions).InCycle := by
  have h : ((new bucket bucketType key).run peer actions).Settled :=
    run_of_turns _ peer (fun _ _ hsettled hturn ↦ Settled.turn hsettled hturn)
      (Or.inl ⟨rfl, rfl⟩) actions
  generalize (new bucket bucketType key).run peer actions = l at h
  have hconflict (hstate : l.object.state = .conflicted) : l.object.state ≠ .clean := by
    rw [hstate]
    exact ConflictState.noConfusion
  constructor
  · rcases h with ⟨hstate, -⟩ | ⟨hstate, -⟩ <;> rw [hstate] <;> exact ConflictState.noConfusion
  · exact h.clean_iff
  · constructor
    · intro hstate
      rcases h with ⟨hclean, -⟩ | ⟨-, hshown⟩
      · exact absurd hclean (hconflict hstate)
      · exact hshown
    · rintro ⟨contents, -, hlen, hsiblings⟩
      rcases h with ⟨-, hnone⟩ | ⟨hstate, -⟩
      · rw [hnone, eq_comm, List.map_eq_nil_iff] at hsiblings
        rw [hsiblings] at hlen
        exact absurd hlen (by decide)
      · exact hstate
  · exact Journal.lastShown_eq_lastUnmarked
  · exact l.object.refers_filter
  · intro ρ merger e hstate herror
    have hretained := Object.resolve_error merger (hconflict hstate) herror
    refine ⟨hretained, ?_⟩
    rw [← hretained.siblingCount]
    apply Object.resolve_of_ne_clean
    rw [hretained.state]
    exact ConflictState.noConfusion
  · exact fun ρ merger hstate hok ↦ Object.resolve_ok merger (hconflict hstate) hok
  · exact fun ρ resolver hstate ↦ Object.resolve_of_clean hstate resolver

/-- A peer that shows two contents, which it may mark as unchanged. -/
def splitPeer (unchanged : Option Bool) : Peer where
  reply _
    | .get _ => .ok { contents := [{ value := [120] }, { value := [121] }], unchanged }
    | q => .ok (q.reply [])
  notFound_ne past q o h := by
    cases q <;> cases h

/-- Resolving fails at first, and then takes over the second version. -/
example : ((new "b" none "k").run (splitPeer none)
    [.fetch {}, .resolve .refusing, .resolve (.adopting 1)]).object =
      { bucket := "b", key := "k", data := [121] } :=
  rfl

/-- A fetch takes the contents nevertheless. -/
theorem conflicted_of_marked :
    ¬(((new "b" none "k").run (splitPeer (some true)) [.fetch {}]).object.state = .conflicted ↔
      ∃ contents, ((new "b" none "k").run (splitPeer (some true)) [.fetch {}]).journal.lastUnmarked =
        some contents ∧ 2 ≤ contents.length ∧
          ((new "b" none "k").run (splitPeer (some true)) [.fetch {}]).object.siblings =
            contents.map Sibling.ofContent) := by
  intro h
  obtain ⟨contents, hnone, -⟩ := h.mp rfl
  cases hnone

end Life
end ReplicaClient
