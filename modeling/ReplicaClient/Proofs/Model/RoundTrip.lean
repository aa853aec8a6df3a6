import ReplicaClient.Proofs.Json.ReadBack
import ReplicaClient.Proofs.Model.Encoding

/-!
# Documents that are read back

A document of a lawful type is decoded from its body and links as it was, but for the tags of its
links.  Nothing else in a body or among links has a part in this.
-/

namespace ReplicaClient
namespace Document

open Json

variable {D : Type} [Document D] {doc doc' : D} {f g : FieldDescriptor} {v : FieldValue}

/-! ## Lawful types of documents -/

/-- A field can be given any value of its kind, but of scalars only those that some document has. -/
def Takes (D : Type) [Document D] (f : FieldDescriptor) (v : FieldValue) : Prop :=
  v.kind = f.kind ∧ (f.kind = .scalar → ∃ doc : D, readField doc f.name = .ok (some v))

structure Lawful (D : Type) [Document D] : Prop where
  names : ((fields D).map (·.name)).Nodup
  wires : ((fields D).map (·.wire)).Nodup
  reads : ∀ doc : D, ∀ f ∈ fields D, ∃ v, readField doc f.name = .ok (some v) ∧ v.kind = f.kind
  writes : ∀ doc : D, ∀ f ∈ fields D, ∀ v, Takes D f v →
    ∃ doc', writeField doc f.name v = .ok doc' ∧ readField doc' f.name = .ok (some v)
  keeps : ∀ doc : D, ∀ f ∈ fields D, ∀ v doc', writeField doc f.name v = .ok doc' →
    ∀ g ∈ fields D, g.name ≠ f.name → readField doc' g.name = readField doc g.name
  unset : ∀ f ∈ fields D, f.kind = .one → readField (default : D) f.name = .ok (some (.one none))

/-! ## What stands in a body -/

theorem ordered_enter {body : List (String × Json)} (h : Assoc.Ordered body) (doc : D)
    (f : FieldDescriptor) : Assoc.Ordered (enter doc body f) := by
  unfold enter
  split
  · exact h.insert _ _
  · exact h

theorem ordered_members (doc : D) : Assoc.Ordered (members doc) := by
  have hfold (fs : List FieldDescriptor) (body : List (String × Json)) (h : Assoc.Ordered body) :
      Assoc.Ordered (fs.foldl (enter doc) body) := by
    induction fs generalizing body with
    | nil => exact h
    | cons f fs ih => exact ih _ (ordered_enter h doc f)
  exact hfold _ _ (List.pairwise_singleton _ _)

/-- What is in a body is its type or the scalar of a field. -/
theorem of_mem_members {m : String × Json} (h : m ∈ members doc) :
    m = (typeMember, .string (typeName D)) ∨
      ∃ f ∈ fields D, readField doc f.name = .ok (some (.scalar m.2)) := by
  have hfold (fs : List FieldDescriptor) (body : List (String × Json)) :
      m ∈ fs.foldl (enter doc) body → m ∈ body ∨
        ∃ f ∈ fs, readField doc f.name = .ok (some (.scalar m.2)) := by
    induction fs generalizing body with
    | nil => exact Or.inl
    | cons f fs ih =>
        intro hm
        rcases ih _ hm with hbody | ⟨g, hg, hread⟩
        · unfold enter at hbody
          split at hbody
          · rename_i j hread
            rcases Assoc.mem_insert hbody with rfl | hbody
            · exact Or.inr ⟨f, List.mem_cons_self, hread⟩
            · exact Or.inl hbody
          · exact Or.inl hbody
        · exact Or.inr ⟨g, List.mem_cons_of_mem f hg, hread⟩
  exact (hfold _ _ h).imp_left List.mem_singleton.mp

theorem find?_foldl_enter_of_not_mem {wire : String} {fs : List FieldDescriptor}
    (h : wire ∉ fs.map (·.wire)) (body : List (String × Json)) :
    Assoc.find? wire (fs.foldl (enter doc) body) = Assoc.find? wire body := by
  induction fs generalizing body with
  | nil => rfl
  | cons f fs ih =>
      rw [List.map_cons, List.mem_cons, not_or] at h
      obtain ⟨hf, hfs⟩ := h
      rw [List.foldl_cons, ih hfs]
      unfold enter
      split
      · exact Assoc.find?_insert_ne (Ne.symm hf) _ _
      · rfl

theorem find?_members (hwires : ((fields D).map (·.wire)).Nodup) (hf : f ∈ fields D) {j : Json}
    (hread : readField doc f.name = .ok (some (.scalar j))) :
    Assoc.find? f.wire (members doc) = some j := by
  have hfold (fs : List FieldDescriptor) (body : List (String × Json))
      (hwires : (fs.map (·.wire)).Nodup) (hf : f ∈ fs) :
      Assoc.find? f.wire (fs.foldl (enter doc) body) = some j := by
    induction fs generalizing body with
    | nil => cases hf
    | cons g fs ih =>
        obtain ⟨hg, hfs⟩ := List.nodup_cons.mp hwires
        rcases List.mem_cons.mp hf with rfl | hf
        · rw [List.foldl_cons, find?_foldl_enter_of_not_mem hg]
          simp [enter, hread, Assoc.find?_insert_self]
        · exact ih _ hfs hf
  exact hfold _ _ hwires hf

/-! ## What stands among links -/

theorem filter_retag (wire : String) (links : List Link) (tag : String) :
    (links.map (Link.retag wire)).filter (·.tag = tag) =
      if wire = tag then links.map (Link.retag wire) else [] := by
  by_cases h : wire = tag <;> simp [List.filter_map, Function.comp_def, Link.retag, h]

theorem filter_taggedLinks (hwires : ((fields D).map (·.wire)).Nodup) (hf : f ∈ fields D)
    (doc : D) :
    (taggedLinks doc (fields D)).filter (·.tag = f.wire) =
      (targets doc f).map (Link.retag f.wire) := by
  have hnone (fs : List FieldDescriptor) (h : f.wire ∉ fs.map (·.wire)) :
      (taggedLinks doc fs).filter (·.tag = f.wire) = [] := by
    apply List.filter_eq_nil_iff.mpr
    intro l hl htag
    obtain ⟨g, hg, hl⟩ := List.mem_flatMap.mp hl
    obtain ⟨l, -, rfl⟩ := List.mem_map.mp hl
    apply h
    rw [← of_decide_eq_true htag]
    exact List.mem_map_of_mem hg
  generalize fields D = fs at hwires hf
  induction fs with
  | nil => cases hf
  | cons g fs ih =>
      obtain ⟨hg, hfs⟩ := List.nodup_cons.mp hwires
      have hcons : taggedLinks doc (g :: fs) =
          (targets doc g).map (Link.retag g.wire) ++ taggedLinks doc fs := List.flatMap_cons
      rw [hcons, List.filter_append, filter_retag]
      rcases List.mem_cons.mp hf with rfl | hf
      · rw [if_pos rfl, hnone fs hg, List.append_nil]
      · have hne : g.wire ≠ f.wire := fun heq ↦ hg (List.mem_map.mpr ⟨f, hf, heq.symm⟩)
        rw [if_neg hne, ih hfs hf, List.nil_append]

/-! ## Taking fields over -/

/-- What is found of a field in its own encoding.  A relation that is not set leaves no trace. -/
theorem fieldContent_encoded (hwires : ((fields D).map (·.wire)).Nodup) (hf : f ∈ fields D)
    (hread : readField doc f.name = .ok (some v)) (hkind : v.kind = f.kind) :
    (fieldContent (members doc) (taggedLinks doc (fields D)) f).1 = some (v.retag f.wire) ∨
      v = .one none ∧
        (fieldContent (members doc) (taggedLinks doc (fields D)) f).1 = none := by
  have htagged := filter_taggedLinks hwires hf doc
  have htargets : targets doc f = v.links := by simp [targets, hread]
  unfold fieldContent
  rw [htagged, htargets, ← hkind]
  cases v with
  | scalar j =>
      have hfound := find?_members hwires hf hread
      exact Or.inl (by simp [FieldValue.kind, FieldValue.retag, hfound])
  | one link =>
      cases link with
      | none => exact Or.inr ⟨rfl, rfl⟩
      | some l => exact Or.inl rfl
  | many links => exact Or.inl rfl

/-- A field takes nothing from a body that another one needs. -/
theorem fieldContent_behind (body : List (String × Json)) (links : List Link)
    (h : g.wire ≠ f.wire) :
    (fieldContent (fieldContent body links f).2 links g).1 = (fieldContent body links g).1 := by
  have hkept : Assoc.find? g.wire (fieldContent body links f).2 = Assoc.find? g.wire body := by
    unfold fieldContent
    cases f.kind with
    | scalar => exact Assoc.find?_erase_ne h body
    | one => rfl
    | many => rfl
  generalize (fieldContent body links f).2 = left at hkept
  cases hkind : g.kind <;> simp [fieldContent, hkind, hkept]

theorem decodeField_ok (hlaw : Lawful D) (hf : f ∈ fields D) (links : List Link) (doc : D)
    (body : List (String × Json))
    (htakes : ∀ v, (fieldContent body links f).1 = some v → Takes D f v) :
    ∃ doc', decodeField links (doc, body) f = .ok (doc', (fieldContent body links f).2) ∧
      readField doc' f.name =
        (fieldContent body links f).1.elim (readField doc f.name) (fun v ↦ .ok (some v)) ∧
      ∀ g ∈ fields D, g.name ≠ f.name → readField doc' g.name = readField doc g.name := by
  unfold decodeField
  cases hcontent : fieldContent body links f with
  | mk value left =>
      simp only [hcontent] at htakes ⊢
      cases value with
      | none => exact ⟨doc, rfl, rfl, fun _ _ _ ↦ rfl⟩
      | some v =>
          obtain ⟨doc', hwrite, hread⟩ := hlaw.writes doc f hf v (htakes v rfl)
          refine ⟨doc', ?_, hread, hlaw.keeps doc f hf v doc' hwrite⟩
          simp only [hwrite]
          rfl

/-- One field after the other is taken over, as far as there is something to be found of it. -/
theorem foldlM_decodeField_ok (hlaw : Lawful D) (links : List Link) {fs : List FieldDescriptor}
    (hfs : ∀ f ∈ fs, f ∈ fields D) (hnames : (fs.map (·.name)).Nodup)
    (hwires : (fs.map (·.wire)).Nodup) (doc : D) (body : List (String × Json))
    (htakes : ∀ f ∈ fs, ∀ v, (fieldContent body links f).1 = some v → Takes D f v) :
    ∃ doc' body', fs.foldlM (decodeField links) (doc, body) = .ok (doc', body') ∧
      (∀ f ∈ fs, readField doc' f.name =
        (fieldContent body links f).1.elim (readField doc f.name) (fun v ↦ .ok (some v))) ∧
      ∀ g ∈ fields D, g.name ∉ fs.map (·.name) → readField doc' g.name = readField doc g.name := by
  induction fs generalizing doc body with
  | nil => exact ⟨doc, body, rfl, nofun, fun _ _ _ ↦ rfl⟩
  | cons f fs ih =>
      obtain ⟨hf, hfs⟩ := List.forall_mem_cons.mp hfs
      obtain ⟨hname, hnames⟩ := List.nodup_cons.mp hnames
      obtain ⟨hwire, hwires⟩ := List.nodup_cons.mp hwires
      obtain ⟨hfirst, hrest⟩ := List.forall_mem_cons.mp htakes
      obtain ⟨doc₁, hstep, hread, hkeep⟩ := decodeField_ok hlaw hf links doc body hfirst
      have hcontent : ∀ g ∈ fs, (fieldContent (fieldContent body links f).2 links g).1 =
          (fieldContent body links g).1 := by
        intro g hg
        exact fieldContent_behind body links fun heq ↦ hwire (List.mem_map.mpr ⟨g, hg, heq⟩)
      obtain ⟨doc', body', hfold, hreads, hkeeps⟩ := ih hfs hnames hwires doc₁ _
        fun g hg v hv ↦ hrest g hg v (hcontent g hg ▸ hv)
      refine ⟨doc', body', ?_, ?_, ?_⟩
      · rw [List.foldlM_cons, hstep]
        exact hfold
      · refine List.forall_mem_cons.mpr ⟨(hkeeps f hf hname).trans hread, fun g hg ↦ ?_⟩
        have hne : g.name ≠ f.name := fun heq ↦ hname (List.mem_map.mpr ⟨g, hg, heq⟩)
        rw [hreads g hg, hcontent g hg, hkeep g (hfs g hg) hne]
      · intro g hg hnot
        rw [List.map_cons, List.mem_cons, not_or] at hnot
        exact (hkeeps g hg hnot.2).trans (hkeep g hg hnot.1)

/-! ## There and back -/

/-- Scalars without doubles and of limited depth make a body that can be read. -/
theorem parse_members {room : Nat} (hroom : room < maxDepth)
    (hplain : ∀ f ∈ fields D, ∀ j, readField doc f.name = .ok (some (.scalar j)) → j.Plain room) :
    parse (Utf8.encode (Json.object (members doc)).render) = .ok (.object (members doc)) := by
  apply parse_render
  apply Plain.object (ordered_members doc)
  intro m hm
  rcases of_mem_members hm with rfl | ⟨f, hf, hread⟩
  · exact .string _ _
  · exact (hplain f hf m.2 hread).mono (Nat.le_of_lt_succ hroom)

/-- Documents that differ by the tags of their links only are encoded alike. -/
theorem encode_retagged (hlaw : Lawful D)
    (h : ∀ f ∈ fields D, ∀ v, readField doc f.name = .ok (some v) →
      readField doc' f.name = .ok (some (v.retag f.wire))) :
    members doc' = members doc ∧ taggedLinks doc' (fields D) = taggedLinks doc (fields D) := by
  have hboth (f : FieldDescriptor) (hf : f ∈ fields D) :
      ∃ v, readField doc f.name = .ok (some v) ∧
        readField doc' f.name = .ok (some (v.retag f.wire)) := by
    obtain ⟨v, hread, -⟩ := hlaw.reads doc f hf
    exact ⟨v, hread, h f hf v hread⟩
  constructor
  · apply List.foldl_ext
    intro body f hf
    obtain ⟨v, hread, hread'⟩ := hboth f hf
    unfold enter
    rw [hread, hread']
    cases v <;> rfl
  · apply List.flatMap_congr
    intro f hf
    obtain ⟨v, hread, hread'⟩ := hboth f hf
    simp [targets, hread, hread', Link.retag, Function.comp_def]

theorem takes_of_fieldContent (hlaw : Lawful D) (doc : D) (hf : f ∈ fields D)
    (hv : (fieldContent (members doc) (taggedLinks doc (fields D)) f).1 = some v) :
    Takes D f v := by
  obtain ⟨w, hread, hkind⟩ := hlaw.reads doc f hf
  rcases fieldContent_encoded hlaw.wires hf hread hkind with hfound | ⟨-, hnone⟩
  · obtain rfl := Option.some.inj (hfound.symm.trans hv)
    refine ⟨(w.kind_retag f.wire).trans hkind, fun hscalar ↦ ⟨doc, ?_⟩⟩
    cases w with
    | scalar j => exact hread
    | _ => cases hkind.trans hscalar
  · cases hnone.symm.trans hv

/-- A document is read back with its scalars and with the targets of its relations, and is then
encoded as before. -/
theorem decode_encoded (hlaw : Lawful D) (doc : D) {room : Nat} (hroom : room < maxDepth)
    (hplain : ∀ f ∈ fields D, ∀ j, readField doc f.name = .ok (some (.scalar j)) → j.Plain room) :
    ∃ data links doc', encode doc = .ok (data, links) ∧ decode D data links = .ok doc' ∧
      (∀ f ∈ fields D, ∀ v, readField doc f.name = .ok (some v) →
        readField doc' f.name = .ok (some (v.retag f.wire))) ∧
      encode doc' = .ok (data, links) := by
  have hreads (doc : D) : ∀ f ∈ fields D, ∃ v, readField doc f.name = .ok v := by
    intro f hf
    obtain ⟨v, hread, -⟩ := hlaw.reads doc f hf
    exact ⟨some v, hread⟩
  obtain ⟨doc', left, hfold, hresult, -⟩ := foldlM_decodeField_ok hlaw
    (taggedLinks doc (fields D)) (fun _ hf ↦ hf) hlaw.names hlaw.wires default (members doc)
    fun f hf v hv ↦ takes_of_fieldContent hlaw doc hf hv
  have hdecode : decode D (Utf8.encode (Json.object (members doc)).render)
      (taggedLinks doc (fields D)) = .ok doc' := by
    rw [decode, parse_members hroom hplain]
    simp only [hfold]
    rfl
  have hback : ∀ f ∈ fields D, ∀ v, readField doc f.name = .ok (some v) →
      readField doc' f.name = .ok (some (v.retag f.wire)) := by
    intro f hf v hread
    obtain ⟨w, hread', hkind⟩ := hlaw.reads doc f hf
    cases hread.symm.trans hread'
    rw [hresult f hf]
    rcases fieldContent_encoded hlaw.wires hf hread hkind with hfound | ⟨rfl, hnone⟩
    · rw [hfound]
      rfl
    · rw [hnone]
      exact hlaw.unset f hf hkind.symm
  obtain ⟨hmembers, hlinks⟩ := encode_retagged hlaw hback
  refine ⟨_, _, doc', encode_eq_ok.mpr ⟨hreads doc, rfl, rfl⟩, hdecode, hback, ?_⟩
  exact encode_eq_ok.mpr ⟨hreads doc', by rw [hmembers], by rw [hlinks]⟩

/-! ## What has no part in it -/

/-- Two bodies have the same scalars, and two lists of links the same relations. -/
def Alike (fs : List FieldDescriptor) (ms ms' : List (String × Json)) (links links' : List Link) :
    Prop :=
  ∀ f ∈ fs, (f.kind = .scalar → Assoc.find? f.wire ms' = Assoc.find? f.wire ms) ∧
    (f.kind ≠ .scalar → links'.filter (·.tag = f.wire) = links.filter (·.tag = f.wire))

section Alike

variable {fs : List FieldDescriptor} {ms ms' : List (String × Json)} {links links' : List Link}

/-- A field finds the same in both, and leaves both alike. -/
theorem Alike.fieldContent (h : Alike (f :: fs) ms ms' links links') :
    (fieldContent ms' links' f).1 = (fieldContent ms links f).1 ∧
      Alike fs (fieldContent ms links f).2 (fieldContent ms' links' f).2 links links' := by
  obtain ⟨⟨hscalar, hrelation⟩, hrest⟩ := List.forall_mem_cons.mp h
  unfold Document.fieldContent
  cases hkind : f.kind with
  | scalar =>
      refine ⟨congrArg (Option.map FieldValue.scalar) (hscalar hkind), fun g hg ↦ ?_⟩
      obtain ⟨hfind, hfilter⟩ := hrest g hg
      refine ⟨fun hg' ↦ ?_, hfilter⟩
      by_cases hwire : g.wire = f.wire
      · rw [hwire, Assoc.find?_erase_self, Assoc.find?_erase_self]
      · rw [Assoc.find?_erase_ne hwire, Assoc.find?_erase_ne hwire]
        exact hfind hg'
  | one =>
      have htagged := hrelation (by rw [hkind]; decide)
      simp only [htagged]
      exact ⟨trivial, hrest⟩
  | many =>
      have htagged := hrelation (by rw [hkind]; decide)
      simp only [htagged]
      exact ⟨trivial, hrest⟩

theorem foldlM_decodeField_alike (h : Alike fs ms ms' links links') (doc : D) :
    (fs.foldlM (decodeField links') (doc, ms')).map (·.1) =
      (fs.foldlM (decodeField links) (doc, ms)).map (·.1) := by
  induction fs generalizing doc ms ms' with
  | nil => rfl
  | cons f fs ih =>
      obtain ⟨hvalue, hrest⟩ := h.fieldContent
      rw [List.foldlM_cons, List.foldlM_cons]
      unfold decodeField
      cases hcontent : fieldContent ms links f with
      | mk value left =>
          cases hcontent' : fieldContent ms' links' f with
          | mk value' left' =>
              simp only [hcontent, hcontent'] at hvalue hrest ⊢
              subst hvalue
              cases value' with
              | none => exact ih hrest doc
              | some v =>
                  cases hwrite : writeField doc f.name v with
                  | error e => simp only [hwrite]; rfl
                  | ok doc' => simp only [hwrite]; exact ih hrest doc'

end Alike

/-- Documents of lawful types, with scalars that have no doubles and do not nest too deep, are
encoded and read back: all scalars are the same, relations have the same targets in the same order,
and the second encoding is the first one.  In decoding, members of a body that are no field's and
links that are no relation's have no part. -/
theorem reads_back (hlaw : Lawful D) :
    (∀ (doc : D) (room : Nat), room < maxDepth →
      (∀ f ∈ fields D, ∀ j, readField doc f.name = .ok (some (.scalar j)) → j.Plain room) →
      ∃ data links doc', encode doc = .ok (data, links) ∧ decode D data links = .ok doc' ∧
        (∀ f ∈ fields D, ∀ v, readField doc f.name = .ok (some v) →
          readField doc' f.name = .ok (some (v.retag f.wire))) ∧
        encode doc' = .ok (data, links)) ∧
    ∀ ms ms' links links' data data', Alike (fields D) ms ms' links links' →
      parse data = .ok (.object ms) → parse data' = .ok (.object ms') →
      decode D data' links' = decode D data links := by
  constructor
  · intro doc room hroom hplain
    exact decode_encoded hlaw doc hroom hplain
  · intro ms ms' links links' data data' halike hdata hdata'
    rw [decode, decode, hdata, hdata']
    exact foldlM_decodeField_alike halike default

/-! ## Cards -/

theorem mem_fields_card : f ∈ fields Card ↔ f = ⟨"title", .scalar, none⟩ ∨
    f = ⟨"owner", .one, some "belongs_to"⟩ ∨ f = ⟨"peers", .many, none⟩ := by
  change f ∈ [⟨"title", .scalar, none⟩, ⟨"owner", .one, some "belongs_to"⟩,
    ⟨"peers", .many, none⟩] ↔ _
  simp

theorem of_writeField_card {c c' : Card} (hf : f ∈ fields Card)
    (h : writeField c f.name v = .ok c') :
    f.name = "title" ∧ c' = { c with title := c'.title } ∨
      f.name = "owner" ∧ c' = { c with owner := c'.owner } ∨
        f.name = "peers" ∧ c' = { c with peers := c'.peers } := by
  rcases mem_fields_card.mp hf with rfl | rfl | rfl
  · change (v.as .text "title").map (fun title ↦ { c with title }) = .ok c' at h
    cases hv : v.as .text "title" with
    | error e => simp [hv, Except.map] at h
    | ok title =>
        rw [hv] at h
        cases h
        exact Or.inl ⟨rfl, rfl⟩
  · change (v.asOne "owner").map (fun owner ↦ { c with owner }) = .ok c' at h
    cases v with
    | one link =>
        cases h
        exact Or.inr (Or.inl ⟨rfl, rfl⟩)
    | _ => cases h
  · change (v.asMany "peers").map (fun peers ↦ { c with peers }) = .ok c' at h
    cases v with
    | many links =>
        cases h
        exact Or.inr (Or.inr ⟨rfl, rfl⟩)
    | _ => cases h

theorem lawful_card : Lawful Card where
  names := by decide
  wires := by decide
  reads c f hf := c.readField_of_mem hf
  writes c f hf v hv := by
    obtain ⟨hkind, hscalar⟩ := hv
    rcases mem_fields_card.mp hf with rfl | rfl | rfl
    · obtain ⟨c', hread⟩ := hscalar rfl
      cases hread
      exact ⟨{ c with title := c'.title }, rfl, rfl⟩
    · cases v with
      | one link => exact ⟨{ c with owner := link }, rfl, rfl⟩
      | _ => cases hkind
    · cases v with
      | many links => exact ⟨{ c with peers := links }, rfl, rfl⟩
      | _ => cases hkind
  keeps c f hf v c' hwrite g hg hne := by
    rcases of_writeField_card hf hwrite with ⟨hname, hc⟩ | ⟨hname, hc⟩ | ⟨hname, hc⟩
    all_goals
      rw [hname] at hne
      rw [hc]
      rcases mem_fields_card.mp hg with rfl | rfl | rfl
      all_goals first | rfl | exact absurd rfl hne
  unset f hf hone := by
    rcases mem_fields_card.mp hf with rfl | rfl | rfl
    · cases hone
    · rfl
    · cases hone

/-- A card comes back, also if its body has a member more and a link leads elsewhere. -/
theorem reads_back_card :
    let c : Card := { title := "t", owner := some ⟨"b", "z", ""⟩, peers := [⟨"b", "p", "old"⟩] }
    let body : List (String × Json) := [("_type", .string "Card"), ("title", .string "t")]
    ∃ data links c', encode c = .ok (data, links) ∧ decode Card data links = .ok c' ∧
      c' = { title := "t", owner := some ⟨"b", "z", "belongs_to"⟩,
             peers := [⟨"b", "p", "peers"⟩] } ∧
      decode Card (Utf8.encode (Json.object (body ++ [("zoo", .null)])).render)
        (⟨"b", "q", "zoo"⟩ :: links) = .ok c' := by
  intro c body
  have hplain : ∀ f ∈ fields Card, ∀ j,
      readField c f.name = .ok (some (.scalar j)) → j.Plain 0 := by
    intro f hf j hread
    rcases mem_fields_card.mp hf with rfl | rfl | rfl
    · cases hread
      exact .string 0 "t"
    · cases hread
    · cases hread
  obtain ⟨hback, hforeign⟩ := reads_back lawful_card
  obtain ⟨data, links, c', hencode, hdecode, hreads, -⟩ := hback c 0 (by decide) hplain
  refine ⟨data, links, c', hencode, hdecode, ?_, ?_⟩
  · have htitle := hreads _ (mem_fields_card.mpr (Or.inl rfl)) _ rfl
    have howner := hreads _ (mem_fields_card.mpr (Or.inr (Or.inl rfl))) _ rfl
    have hpeers := hreads _ (mem_fields_card.mpr (Or.inr (Or.inr rfl))) _ rfl
    cases c'
    cases htitle
    cases howner
    cases hpeers
    rfl
  · obtain ⟨-, hdata, hlinks⟩ := encode_eq_ok.mp hencode
    have hbody : parse data = .ok (.object body) := by
      rw [hdata]
      exact parse_members (by decide) hplain
    have hparse : parse (Utf8.encode (Json.object (body ++ [("zoo", .null)])).render) =
        .ok (.object (body ++ [("zoo", .null)])) := by
      have hordered : Assoc.Ordered (body ++ [("zoo", .null)]) := by
        unfold Assoc.Ordered
        decide
      apply parse_render
      apply Plain.object hordered
      simp only [body, List.cons_append, List.nil_append, List.forall_mem_cons]
      exact ⟨.string _ _, .string _ _, .null _, nofun⟩
    rw [← hdecode]
    apply hforeign body _ _ _ _ _ _ hbody hparse
    intro f hf
    rw [hlinks]
    rcases mem_fields_card.mp hf with rfl | rfl | rfl
    · exact ⟨fun _ ↦ rfl, nofun⟩
    · exact ⟨nofun, fun _ ↦ rfl⟩
    · exact ⟨nofun, fun _ ↦ rfl⟩

end Document
end ReplicaClient
