import ReplicaClient.Proofs.Json.ReadBack
import ReplicaClient.Proofs.Model.Encoding

/-!
# Slots for documents

The versions of an object are decoded into slots one after the other.  If one of them cannot be
decoded, the slots before it have been overwritten by then.  So a failure leaves the slots as they
were exactly if their number is wrong or if what has been written was there before.
-/

namespace ReplicaClient
namespace Conflict

variable {D : Type} [Document D] {versions : List Sibling} {docs slots : List D}

def documents (D : Type) [Document D] (versions : List Sibling) : Except ClientError (List D) :=
  versions.mapM fun s ↦ Document.decode D s.data s.links

/-- The documents of the versions before the first that cannot be decoded. -/
def readable (D : Type) [Document D] : List Sibling → List D
  | [] => []
  | s :: versions =>
      match Document.decode D s.data s.links with
      | .error _ => []
      | .ok doc => doc :: readable D versions

theorem siblings_eq (c : Conflict) : c.siblings D = documents D c.object.versions :=
  rfl

theorem documents_cons (s : Sibling) (versions : List Sibling) :
    documents D (s :: versions) =
      match Document.decode D s.data s.links with
      | .error e => .error e
      | .ok doc => (documents D versions).map (doc :: ·) := by
  rw [documents, List.mapM_cons]
  cases Document.decode D s.data s.links with
  | error e => rfl
  | ok doc =>
      rw [← documents]
      cases documents D versions <;> rfl

/-- If all versions can be decoded, all of them are read. -/
theorem readable_of_documents (h : documents D versions = .ok docs) :
    readable D versions = docs ∧ docs.length = versions.length := by
  induction versions generalizing docs with
  | nil =>
      cases h
      exact ⟨rfl, rfl⟩
  | cons s versions ih =>
      rw [documents_cons] at h
      rw [readable]
      cases hdoc : Document.decode D s.data s.links with
      | error e =>
          rw [hdoc] at h
          cases h
      | ok doc =>
          rw [hdoc] at h
          cases hrest : documents D versions with
          | error e =>
              rw [hrest] at h
              cases h
          | ok rest =>
              rw [hrest] at h
              cases h
              obtain ⟨hread, hlength⟩ := ih hrest
              exact ⟨congrArg (doc :: ·) hread, congrArg (· + 1) hlength⟩

/-- Slots are filled with what is read; those behind it stay as they were. -/
theorem fill_eq (h : slots.length = versions.length) :
    fill slots versions =
      ((documents D versions).map fun _ ↦ (),
        readable D versions ++ slots.drop (readable D versions).length) := by
  induction versions generalizing slots with
  | nil =>
      obtain rfl := List.eq_nil_of_length_eq_zero h
      rfl
  | cons s versions ih =>
      cases slots with
      | nil => cases h
      | cons slot slots =>
          rw [fill, documents_cons, readable]
          cases Document.decode D s.data s.links with
          | error e => rfl
          | ok doc =>
              dsimp only
              rw [ih (Nat.succ.inj h)]
              cases documents D versions <;> rfl

/-! ## Outcomes -/

theorem siblingsInto_of_ne (c : Conflict) (h : slots.length ≠ c.siblingCount) :
    c.siblingsInto slots = (.error (.siblingCountMismatch c.siblingCount slots.length), slots) :=
  if_neg h

theorem siblingsInto_of_documents (c : Conflict) (h : slots.length = c.siblingCount)
    (hlist : c.siblings D = .ok docs) : c.siblingsInto slots = (.ok (), docs) := by
  rw [siblings_eq] at hlist
  obtain ⟨hread, hdocs⟩ := readable_of_documents hlist
  have hnone : slots.drop docs.length = [] :=
    List.drop_eq_nil_of_le (Nat.le_of_eq (h.trans hdocs.symm))
  rw [siblingsInto, if_pos h, fill_eq h, hlist, hread, hnone, List.append_nil]
  rfl

theorem siblingsInto_of_fault (c : Conflict) {e : ClientError} (h : slots.length = c.siblingCount)
    (hlist : c.siblings D = .error e) :
    c.siblingsInto slots = (.error e, readable D c.object.versions ++
      slots.drop (readable D c.object.versions).length) := by
  rw [siblings_eq] at hlist
  rw [siblingsInto, if_pos h, fill_eq h, hlist]
  rfl

/-- Slots are filled exactly if there are as many as versions and these can be listed, and then with
the list.  Else their number is wrong and nothing is written, or the fault is that of listing and what
comes before the faulty version has been written. -/
theorem siblingsInto_unharmed_iff (c : Conflict) (slots : List D) :
    let r := c.siblingsInto slots
    let docs := readable D c.object.versions
    (r.1 = .ok () ↔ slots.length = c.siblingCount ∧ ∃ docs, c.siblings D = .ok docs) ∧
      (r.1 = .ok () → c.siblings D = .ok r.2) ∧
      ∀ e, r.1 = .error e →
        (slots.length ≠ c.siblingCount ∧ e = .siblingCountMismatch c.siblingCount slots.length ∨
          slots.length = c.siblingCount ∧ c.siblings D = .error e ∧
            r.2 = docs ++ slots.drop docs.length) ∧
        (r.2 = slots ↔ slots.length ≠ c.siblingCount ∨ docs <+: slots) := by
  intro r docs
  by_cases hlength : slots.length = c.siblingCount
  · cases hlist : c.siblings D with
    | ok list =>
        have hr : r = (.ok (), list) := siblingsInto_of_documents c hlength hlist
        rw [hr]
        refine ⟨⟨fun _ ↦ ⟨hlength, list, rfl⟩, fun _ ↦ rfl⟩, fun _ ↦ rfl, ?_⟩
        rintro _ ⟨⟩
    | error e =>
        have hr : r = (.error e, docs ++ slots.drop docs.length) :=
          siblingsInto_of_fault c hlength hlist
        rw [hr]
        refine ⟨⟨nofun, fun ⟨_, list, h⟩ ↦ nomatch h⟩, nofun, ?_⟩
        rintro _ ⟨⟩
        refine ⟨Or.inr ⟨hlength, rfl, rfl⟩, ?_⟩
        rw [or_iff_right (not_not_intro hlength), List.prefix_iff_eq_append]
  · have hr : r = (.error _, slots) := siblingsInto_of_ne c hlength
    rw [hr]
    refine ⟨⟨nofun, fun h ↦ absurd h.1 hlength⟩, nofun, ?_⟩
    rintro _ ⟨⟩
    exact ⟨Or.inl ⟨hlength, rfl⟩, fun _ ↦ Or.inl hlength, fun _ ↦ rfl⟩

/-- The second version is no object, and by then the first has taken the place of what was in its
slot.  The first alone goes into its slot as it is listed. -/
theorem siblingsInto_unharmed_iff_foreign :
    let card : Sibling := { data := Utf8.encode (Json.object [("title", .string "a")]).render }
    let foreign : Sibling := { data := Utf8.encode (Json.array []).render }
    let o : Object := { bucket := "b", key := "k", state := .conflicted }
    let c : Conflict := ⟨{ o with siblings := [card, foreign] }⟩
    let c' : Conflict := ⟨{ o with siblings := [card] }⟩
    let slots : List Card := [{}, {}]
    let e : ClientError := .typeMismatch Document.typeMember .notAnObject
    (c.siblingsInto slots).1 = .error e ∧ slots.length = c.siblingCount ∧
      c.siblings Card = .error e ∧ (c.siblingsInto slots).2 ≠ slots ∧
      (c'.siblingsInto (D := Card) [{}]).1 = .ok () ∧
      c'.siblings Card = .ok (c'.siblingsInto [{}]).2 := by
  intro card foreign o c c' slots e
  have hcard : Document.decode Card card.data card.links = .ok { title := "a" } := by
    have hparse : Json.parse card.data = .ok (.object [("title", .string "a")]) := by
      apply Json.parse_render
      exact .object (List.pairwise_singleton _ _)
        fun m hm ↦ List.mem_singleton.mp hm ▸ .string _ _
    rw [Document.decode, hparse]
    rfl
  have hforeign : Document.decode Card foreign.data foreign.links = .error e := by
    have hparse : Json.parse foreign.data = .ok (.array []) :=
      Json.parse_render (.array nofun)
    rw [Document.decode, hparse]
  have hread : readable Card c.object.versions = [{ title := "a" }] := by
    show readable Card [card, foreign] = _
    simp only [readable, hcard, hforeign]
  have hlist : c.siblings Card = .error e := by
    show documents Card [card, foreign] = _
    rw [documents_cons, documents_cons, hcard, hforeign]
    rfl
  have hlist' : c'.siblings Card = .ok [{ title := "a" }] := by
    show documents Card [card] = _
    rw [documents_cons, hcard]
    rfl
  have hlength : slots.length = c.siblingCount := rfl
  have hfault : (c.siblingsInto slots).1 = .error e := by
    rw [siblingsInto_of_fault c hlength hlist]
  obtain ⟨-, -, hfailed⟩ := siblingsInto_unharmed_iff c slots
  obtain ⟨hfilled, hlisted, -⟩ := siblingsInto_unharmed_iff c' [({} : Card)]
  have hdone := hfilled.mpr ⟨rfl, _, hlist'⟩
  refine ⟨hfault, hlength, hlist, fun hsame ↦ ?_, hdone, hlisted hdone⟩
  rcases (hfailed _ hfault).2.mp hsame with hne | hprefix
  · exact hne hlength
  · rw [hread] at hprefix
    have htitle : "a" = "" := congrArg Card.title (List.cons_prefix_cons.mp hprefix).1
    exact absurd htitle (by decide)

end Conflict
end ReplicaClient
