import Mathlib.Data.List.DropRight
import ReplicaClient.Proofs.Json.Strings
import ReplicaClient.Proofs.Object.Grouping
import ReplicaClient.Proofs.Text.Natural

/-!
# Reading back JSON

A value without doubles is read back from what is printed of it, as long as its containers do not
nest too deep.  Behind the value there may be whatever ends it.
-/

namespace ReplicaClient
namespace Json

variable {rest : Bytes}

/-- Nothing follows with which a number would go on. -/
def AtBreak (rest : Bytes) : Prop :=
  ∀ b ∈ rest.head?, b = 0x2C ∨ b = 0x5D ∨ b = 0x7D

theorem atBreak_nil : AtBreak [] :=
  nofun

/-! ## Numbers -/

/-- A digit is one octet, and that is a digit of the same value. -/
theorem utf8EncodeChar_digit {c : Char} (h : c.isDigit = true) :
    ∃ b, String.utf8EncodeChar c = [b] ∧ isDigit b = true ∧
      digitValue b = c.toNat - '0'.toNat := by
  obtain ⟨hlow, hhigh⟩ := Char.isDigit_iff_toNat.mp h
  simp only [Char.reduceToNat] at hlow hhigh
  have hnat : (UInt8.ofNat c.toNat).toNat = c.toNat := Utf8.toNat_ofNat (by omega)
  refine ⟨UInt8.ofNat c.toNat, Utf8.utf8EncodeChar_of_lt (by omega), ?_, ?_⟩
  · simp only [isDigit, UInt8.le_iff_toNat_le, hnat, UInt8.reduceToNat, Bool.and_eq_true,
      decide_eq_true_eq]
    exact ⟨hlow, hhigh⟩
  · rw [digitValue, hnat]
    rfl

theorem digits_append {ds : List Char} (h : ∀ c ∈ ds, c.isDigit = true) (hrest : AtBreak rest) :
    digits (Utf8.encodeChars ds ++ rest) = (ds.map fun c ↦ c.toNat - '0'.toNat, rest) := by
  induction ds with
  | nil =>
      cases rest with
      | nil => rfl
      | cons b rest =>
          have hstop : isDigit b = false := by
            rcases hrest b rfl with rfl | rfl | rfl <;> rfl
          simp [digits, hstop]
  | cons c ds ih =>
      obtain ⟨b, hencode, hdigit, hvalue⟩ := utf8EncodeChar_digit (h c List.mem_cons_self)
      have hbehind := ih fun c' hc' ↦ h c' (List.mem_cons_of_mem c hc')
      unfold digits at hbehind ⊢
      rw [Prod.mk.injEq] at hbehind
      simp [hencode, hdigit, hvalue, hbehind]

/-- No number but zero begins with a zero. -/
theorem toDigits_ne_zero_cons {n : Nat} (hn : n ≠ 0) (ds : List Char) :
    Nat.toDigits 10 n ≠ '0' :: ds := by
  induction n using Nat.strongRecOn generalizing ds with
  | ind n ih =>
      by_cases hsmall : n < 10
      · rw [Nat.toDigits_of_lt_base hsmall]
        have hall : ∀ n < 10, n ≠ 0 → Nat.digitChar n ≠ '0' := by decide
        intro heq
        exact hall n hsmall hn (List.cons.inj heq).1
      · rw [Nat.toDigits_of_base_le (by decide) (Nat.not_lt.mp hsmall)]
        have hfirst := ih (n / 10) (by omega) (by omega)
        cases htens : Nat.toDigits 10 (n / 10) with
        | nil => exact absurd htens Nat.toDigits_ne_nil
        | cons d tail =>
            intro heq
            exact hfirst tail (by rw [htens, (List.cons.inj heq).1])

theorem readInteger_toDigits (n : Nat) (hrest : AtBreak rest) :
    readInteger (Utf8.encodeChars (Nat.toDigits 10 n) ++ rest) =
      .ok ((Nat.toDigits 10 n).map fun c ↦ c.toNat - '0'.toNat, rest) := by
  have hdigits := digits_append (fun c hc ↦ Text.isDigit_of_mem_toDigits (n := n) hc) hrest
  rw [readInteger, hdigits]
  cases hds : Nat.toDigits 10 n with
  | nil => exact absurd hds Nat.toDigits_ne_nil
  | cons d ds =>
      cases ds with
      | nil =>
          rw [List.map_singleton]
          cases d.toNat - '0'.toNat <;> rfl
      | cons e ds =>
          have hn : n ≠ 0 := by
            rintro rfl
            rw [Nat.toDigits_zero] at hds
            cases hds
          have hfirst : d.toNat ≠ '0'.toNat := fun hd ↦
            toDigits_ne_zero_cons hn (e :: ds) (by rw [hds, Char.toNat_inj.mp hd])
          have hdigit : d.isDigit = true :=
            Text.isDigit_of_mem_toDigits (by rw [hds]; exact List.mem_cons_self)
          have hlow := (Char.isDigit_iff_toNat.mp hdigit).1
          obtain ⟨k, hk⟩ : ∃ k, d.toNat - '0'.toNat = k + 1 := ⟨d.toNat - '0'.toNat - 1, by omega⟩
          rw [List.map_cons, hk]
          rfl

theorem whole?_natAbs (n : Whole) : whole? (decide (n.val < 0)) n.val.natAbs = some n := by
  have hself : Whole.ofInt? n.val = some n := dif_pos ⟨n.low, n.high⟩
  unfold whole?
  by_cases hneg : n.val < 0
  · have hval : -(n.val.natAbs : Int) = n.val := by omega
    rw [if_pos (decide_eq_true hneg), if_neg (by omega), hval, hself]
  · have hval : (n.val.natAbs : Int) = n.val := by omega
    rw [decide_eq_false hneg, if_neg Bool.false_ne_true, hval, hself]

theorem readNumber_toDigits (n : Whole) (hrest : AtBreak rest) :
    readNumber (decide (n.val < 0)) (Utf8.encodeChars (Nat.toDigits 10 n.val.natAbs) ++ rest) =
      .ok (.whole n, rest) := by
  have hinteger := readInteger_toDigits n.val.natAbs hrest
  have hvalue : ofDigits ((Nat.toDigits 10 n.val.natAbs).map fun c ↦ c.toNat - '0'.toNat) =
      n.val.natAbs := by
    have hsame := Text.ofDigits_toDigits n.val.natAbs
    rwa [Text.ofDigits, ← List.foldl_map] at hsame
  have hfraction : readOptionalFraction rest = .ok (none, rest) := by
    cases rest with
    | nil => rfl
    | cons b rest => rcases hrest b rfl with rfl | rfl | rfl <;> rfl
  have hexponent : readOptionalExponent rest = .ok (none, rest) := by
    cases rest with
    | nil => rfl
    | cons b rest => rcases hrest b rfl with rfl | rfl | rfl <;> rfl
  have hnumber : numberValue (decide (n.val < 0))
      ((Nat.toDigits 10 n.val.natAbs).map fun c ↦ c.toNat - '0'.toNat) none none =
        .ok (.whole n) := by
    unfold numberValue
    rw [hvalue, whole?_natAbs]
  simp only [readNumber, hinteger, hfraction, hexponent, hnumber, bind, Except.bind, pure,
    Except.pure]

/-! ## Values -/

/-- Values without doubles whose containers nest at most so deep.  The members of an object are in
the order of their keys. -/
inductive Plain : Nat → Json → Prop where
  | null (room : Nat) : Plain room .null
  | bool (room : Nat) (b : Bool) : Plain room (.bool b)
  | whole (room : Nat) (n : Whole) : Plain room (.whole n)
  | string (room : Nat) (s : String) : Plain room (.string s)
  | array {room : Nat} {items : List Json} (below : ∀ j ∈ items, Plain room j) :
      Plain (room + 1) (.array items)
  | object {room : Nat} {members : List (String × Json)} (ordered : Assoc.Ordered members)
      (below : ∀ m ∈ members, Plain room m.2) : Plain (room + 1) (.object members)

theorem Plain.mono {room : Nat} {j : Json} (h : j.Plain room) {room' : Nat} (hle : room ≤ room') :
    j.Plain room' := by
  induction h generalizing room' with
  | null => exact .null room'
  | bool _ b => exact .bool room' b
  | whole _ n => exact .whole room' n
  | string _ s => exact .string room' s
  | array _ ih =>
      cases room' with
      | zero => cases hle
      | succ room' => exact .array fun j hj ↦ ih j hj (Nat.le_of_succ_le_succ hle)
  | object ordered _ ih =>
      cases room' with
      | zero => cases hle
      | succ room' => exact .object ordered fun m hm ↦ ih m hm (Nat.le_of_succ_le_succ hle)

/-- Texts with a comma between two of them. -/
def joined (texts : List (List Char)) : List Char :=
  (texts.intersperse [',']).flatten

theorem joined_cons (text : List Char) (texts : List (List Char)) :
    joined (text :: texts) = text ++ texts.flatMap (',' :: ·) := by
  induction texts generalizing text with
  | nil => simp [joined]
  | cons text' texts ih =>
      have hrest := ih text'
      simp only [joined, List.intersperse_cons_cons, List.flatten_cons] at hrest ⊢
      rw [hrest]
      rfl

theorem printItems_eq (items : List Json) : printItems items = joined (items.map print) := by
  induction items with
  | nil => rfl
  | cons j items ih =>
      cases items with
      | nil => simp [printItems, joined]
      | cons k items => simp [printItems, ih, joined]

def printMember (m : String × Json) : List Char :=
  printString m.1 ++ ':' :: m.2.print

theorem printMembers_eq (members : List (String × Json)) :
    printMembers members = joined (members.map printMember) := by
  induction members with
  | nil => rfl
  | cons m members ih =>
      cases members with
      | nil => simp [printMembers, printMember, joined]
      | cons m' members => simp [printMembers, printMember, ih, joined]

/-- A text is read as a value, whatever may follow it. -/
def ReadsAs (room : Nat) (text : List Char) (j : Json) : Prop :=
  ∀ fuel rest, text.length ≤ fuel → AtBreak rest →
    readValue fuel room (Utf8.encodeChars text ++ rest) = .ok (j, rest)

/-- A value is read back, whatever may follow it. -/
def ReadsBack (room : Nat) (j : Json) : Prop :=
  ∀ fuel rest, j.print.length ≤ fuel → AtBreak rest →
    readValue fuel room (Utf8.encodeChars j.print ++ rest) = .ok (j, rest)

variable {fuel room : Nat}

/-- A value takes a step. -/
theorem ReadsAs.of_succ {text : List Char} {j : Json} (hlength : 0 < text.length)
    (h : ∀ fuel rest, text.length ≤ fuel + 1 → AtBreak rest →
      readValue (fuel + 1) room (Utf8.encodeChars text ++ rest) = .ok (j, rest)) :
    ReadsAs room text j := by
  intro fuel rest hfuel hrest
  cases fuel with
  | zero => omega
  | succ fuel => exact h fuel rest hfuel hrest

theorem ReadsAs.length_pos {text : List Char} {j : Json} (h : ReadsAs room text j) :
    0 < text.length := by
  by_contra hempty
  have hread := h 0 [] (Nat.not_lt.mp hempty) atBreak_nil
  cases hread

theorem readsBack_null (room : Nat) : ReadsBack room .null :=
  ReadsAs.of_succ (Nat.succ_pos _) fun _ _ _ _ ↦ rfl

theorem readsBack_bool (room : Nat) (b : Bool) : ReadsBack room (.bool b) := by
  cases b <;> exact ReadsAs.of_succ (Nat.succ_pos _) fun _ _ _ _ ↦ rfl

theorem readsBack_string (room : Nat) (s : String) : ReadsBack room (.string s) := by
  refine ReadsAs.of_succ (Nat.succ_pos _) fun fuel rest _ _ ↦ ?_
  have hprint : Utf8.encodeChars (print (.string s)) ++ rest =
      0x22 :: (Utf8.encodeChars (s.toList.flatMap escapeChar) ++ 0x22 :: rest) := by
    simp [print, printString, String.utf8EncodeChar]
  have hread : readValue (fuel + 1) room (Utf8.encodeChars (print (.string s)) ++ rest) =
      (readString (Utf8.encodeChars (s.toList.flatMap escapeChar) ++ 0x22 :: rest)).map
        fun p ↦ (.string p.1, p.2) := by
    rw [hprint]
    rfl
  rw [hread, readString_escaped]
  rfl

theorem readValue_digit {b : UInt8} (h : isDigit b = true) (bs : Bytes) :
    readValue (fuel + 1) room (b :: bs) = readNumber false (b :: bs) := by
  have hne {c : UInt8} (hc : isDigit c = false) : b ≠ c := by
    rintro rfl
    rw [h] at hc
    cases hc
  have hblank : isBlank b = false := by
    simp [isBlank, hne (c := 0x20) rfl, hne (c := 0x09) rfl, hne (c := 0x0A) rfl,
      hne (c := 0x0D) rfl]
  have hskip : skipBlanks (b :: bs) = b :: bs := List.dropWhile_cons_of_neg (by rw [hblank]; decide)
  rw [readValue, hskip]
  dsimp only
  rw [if_neg (hne rfl), if_neg (hne rfl), if_neg (hne rfl), if_neg (hne rfl), if_neg (hne rfl),
    if_pos h]

theorem readsBack_whole (room : Nat) (n : Whole) : ReadsBack room (.whole n) := by
  have hnumber {rest : Bytes} (hrest : AtBreak rest) := readNumber_toDigits n hrest
  by_cases hneg : n.val < 0
  · have hprint : print (.whole n) = '-' :: Nat.toDigits 10 n.val.natAbs := if_pos hneg
    refine ReadsAs.of_succ (hprint ▸ Nat.succ_pos _) fun fuel rest _ hrest ↦ ?_
    have hread : readValue (fuel + 1) room (Utf8.encodeChars (print (.whole n)) ++ rest) =
        readNumber true (Utf8.encodeChars (Nat.toDigits 10 n.val.natAbs) ++ rest) := by
      rw [hprint]
      rfl
    rw [hread, ← hnumber hrest, decide_eq_true hneg]
  · have hprint : print (.whole n) = Nat.toDigits 10 n.val.natAbs := if_neg hneg
    refine ReadsAs.of_succ (hprint ▸ Nat.length_toDigits_pos) fun fuel rest _ hrest ↦ ?_
    have hread := hnumber hrest
    rw [decide_eq_false hneg] at hread
    rw [hprint, ← hread]
    cases hds : Nat.toDigits 10 n.val.natAbs with
    | nil => exact absurd hds Nat.toDigits_ne_nil
    | cons d ds =>
        have hdigit : d.isDigit = true :=
          Text.isDigit_of_mem_toDigits (hds ▸ List.mem_cons_self)
        obtain ⟨b, hencode, hb, -⟩ := utf8EncodeChar_digit hdigit
        rw [Utf8.encodeChars_cons, hencode]
        exact readValue_digit hb _

/-! ### Arrays -/

theorem utf8EncodeChar_comma : String.utf8EncodeChar ',' = [0x2C] :=
  rfl

theorem atBreak_behind {α : Type} (l : List α) (f : α → List Char) {b : UInt8}
    (hb : b = 0x5D ∨ b = 0x7D) (rest : Bytes) :
    AtBreak (Utf8.encodeChars (l.flatMap fun a ↦ ',' :: f a) ++ b :: rest) := by
  cases l with
  | nil =>
      rintro _ ⟨⟩
      exact Or.inr hb
  | cons a l =>
      rintro _ ⟨⟩
      exact Or.inl rfl

section Items

variable {bs after : Bytes} {j : Json} {items : List Json}

/-- A value begins behind blanks, and not with a closing bracket. -/
theorem begins_of_readValue (h : readValue fuel room bs = .ok (j, rest)) :
    ∃ b tail, skipBlanks bs = b :: tail ∧ b ≠ 0x5D ∧
      readValue fuel room (b :: tail) = .ok (j, rest) := by
  have hagain : readValue fuel room (skipBlanks bs) = readValue fuel room bs := by
    cases fuel with
    | zero => rfl
    | succ fuel =>
        have hidem : skipBlanks (skipBlanks bs) = skipBlanks bs := List.dropWhile_idempotent _ _
        rw [readValue, readValue, hidem]
  rw [← hagain] at h
  cases hskip : skipBlanks bs with
  | nil =>
      rw [hskip] at h
      cases fuel <;> cases h
  | cons b tail =>
      rw [hskip] at h
      refine ⟨b, tail, rfl, ?_, h⟩
      rintro rfl
      cases fuel <;> cases h

theorem readItems_cons (hvalue : readValue fuel room bs = .ok (j, rest))
    (hitems : readItems fuel room false rest = .ok (items, after)) :
    readItems (fuel + 1) room true bs = .ok (j :: items, after) ∧
      readItems (fuel + 1) room false (0x2C :: bs) = .ok (j :: items, after) := by
  obtain ⟨b, tail, hskip, hb, hvalue⟩ := begins_of_readValue hvalue
  constructor
  · rw [readItems, hskip]
    simp only [if_neg hb, if_pos, hvalue, hitems, bind, Except.bind, pure, Except.pure]
  · have hcomma : skipBlanks (0x2C :: bs) = 0x2C :: bs := rfl
    rw [readItems, hcomma]
    dsimp only
    rw [if_neg (by decide), if_neg Bool.false_ne_true, if_pos rfl, hskip]
    split
    · rename_i heq
      exact absurd (List.cons.inj heq).1 hb
    · simp only [hvalue, hitems, bind, Except.bind, pure, Except.pure]

theorem readItems_behind {texts : List (List Char × Json)}
    (h : ∀ p ∈ texts, ReadsAs room p.1 p.2) (fuel : Nat)
    (hfuel : (texts.flatMap fun p ↦ ',' :: p.1).length < fuel) (rest : Bytes) :
    readItems fuel room false
      (Utf8.encodeChars (texts.flatMap fun p ↦ ',' :: p.1) ++ 0x5D :: rest) =
        .ok (texts.map Prod.snd, rest) := by
  induction texts generalizing fuel with
  | nil =>
      cases fuel with
      | zero => cases hfuel
      | succ fuel => rfl
  | cons p texts ih =>
      cases fuel with
      | zero => cases hfuel
      | succ fuel =>
          obtain ⟨hp, htexts⟩ := List.forall_mem_cons.mp h
          rw [List.flatMap_cons, List.length_append, List.length_cons] at hfuel
          have hbehind := ih htexts fuel (by omega)
          have hvalue := hp fuel _ (by omega) (atBreak_behind texts Prod.fst (Or.inl rfl) rest)
          have hcons := (readItems_cons hvalue hbehind).2
          simpa [utf8EncodeChar_comma] using hcons

/-- An array is read from the texts of its items. -/
theorem readsAs_array {texts : List (List Char × Json)} (h : ∀ p ∈ texts, ReadsAs room p.1 p.2) :
    ReadsAs (room + 1) ('[' :: joined (texts.map Prod.fst) ++ [']'])
      (.array (texts.map Prod.snd)) := by
  generalize htext : joined (texts.map Prod.fst) = text
  refine .of_succ (Nat.succ_pos _) fun fuel rest hfuel _ ↦ ?_
  have hprint : Utf8.encodeChars ('[' :: text ++ [']']) ++ rest =
      0x5B :: (Utf8.encodeChars text ++ 0x5D :: rest) := by
    simp [String.utf8EncodeChar]
  have hitems : readItems fuel room true (Utf8.encodeChars text ++ 0x5D :: rest) =
      .ok (texts.map Prod.snd, rest) := by
    have hlength : text.length + 1 ≤ fuel := by simpa using hfuel
    subst htext
    cases fuel with
    | zero => cases hlength
    | succ fuel =>
        cases texts with
        | nil => rfl
        | cons p texts =>
            obtain ⟨hp, htexts⟩ := List.forall_mem_cons.mp h
            have hpos := hp.length_pos
            rw [List.map_cons, joined_cons, List.flatMap_map, List.length_append] at hlength
            have hbehind := readItems_behind htexts fuel (by omega) rest
            have hvalue := hp fuel _ (by omega) (atBreak_behind texts Prod.fst (Or.inl rfl) rest)
            have hcons := (readItems_cons hvalue hbehind).1
            rw [List.map_cons, joined_cons, List.flatMap_map, Utf8.encodeChars_append,
              List.append_assoc]
            exact hcons
  have hread : readValue (fuel + 1) (room + 1) (Utf8.encodeChars ('[' :: text ++ [']']) ++ rest) =
      (readItems fuel room true (Utf8.encodeChars text ++ 0x5D :: rest)).map
        fun p ↦ (.array p.1, p.2) := by
    rw [hprint]
    rfl
  rw [hread, hitems]
  rfl

theorem readsBack_array (h : ∀ j ∈ items, ReadsBack room j) :
    ReadsBack (room + 1) (.array items) := by
  have hitems : ∀ p ∈ items.map fun j ↦ (j.print, j), ReadsAs room p.1 p.2 :=
    List.forall_mem_map.mpr h
  have harray := readsAs_array hitems
  simp only [List.map_map, Function.comp_def, List.map_id'] at harray
  have hprint : print (.array items) = '[' :: joined (items.map print) ++ [']'] := by
    rw [print, printItems_eq]
  intro fuel rest
  rw [hprint]
  exact harray fuel rest

end Items

/-! ### Objects -/

section Members

variable {bs value behind after : Bytes} {key : String} {j : Json} {members : List (String × Json)}

theorem readMembers_cons (hkey : readString bs = .ok (key, 0x3A :: value))
    (hvalue : readValue fuel room value = .ok (j, behind))
    (hmembers : readMembers fuel room false behind = .ok (members, after)) :
    readMembers (fuel + 1) room true (0x22 :: bs) = .ok ((key, j) :: members, after) ∧
      readMembers (fuel + 1) room false (0x2C :: 0x22 :: bs) =
        .ok ((key, j) :: members, after) := by
  have hquote : expect 0x22 (skipBlanks (0x22 :: bs)) = .ok bs := rfl
  have hcolon : expect 0x3A (skipBlanks (0x3A :: value)) = .ok value := rfl
  constructor
  · have hskip : skipBlanks (0x22 :: bs) = 0x22 :: bs := rfl
    rw [readMembers, hskip]
    simp [hquote, hkey, hcolon, hvalue, hmembers, bind, Except.bind, pure, Except.pure]
  · have hskip : skipBlanks (0x2C :: 0x22 :: bs) = 0x2C :: 0x22 :: bs := rfl
    have hcomma : expect 0x2C (0x2C :: 0x22 :: bs) = .ok (0x22 :: bs) := rfl
    rw [readMembers, hskip]
    simp [hcomma, hquote, hkey, hcolon, hvalue, hmembers, bind, Except.bind, pure, Except.pure]

/-- A member whose value is written as a text. -/
def memberText (key : String) (text : List Char) : List Char :=
  printString key ++ ':' :: text

/-- The octets of a member, its quote apart. -/
theorem encodeChars_memberText (key : String) (text : List Char) (rest : Bytes) :
    Utf8.encodeChars (memberText key text) ++ rest =
      0x22 :: (Utf8.encodeChars (key.toList.flatMap escapeChar) ++
        0x22 :: 0x3A :: (Utf8.encodeChars text ++ rest)) := by
  simp [memberText, printString, String.utf8EncodeChar]

theorem length_memberText (key : String) (text : List Char) :
    text.length < (memberText key text).length := by
  rw [memberText, List.length_append, List.length_cons]
  omega

variable {texts : List (String × List Char × Json)}

theorem readMembers_behind (h : ∀ m ∈ texts, ReadsAs room m.2.1 m.2.2) (fuel : Nat)
    (hfuel : (texts.flatMap fun m ↦ ',' :: memberText m.1 m.2.1).length < fuel) (rest : Bytes) :
    readMembers fuel room false
      (Utf8.encodeChars (texts.flatMap fun m ↦ ',' :: memberText m.1 m.2.1) ++ 0x7D :: rest) =
        .ok (texts.map fun m ↦ (m.1, m.2.2), rest) := by
  induction texts generalizing fuel with
  | nil =>
      cases fuel with
      | zero => cases hfuel
      | succ fuel => rfl
  | cons m texts ih =>
      cases fuel with
      | zero => cases hfuel
      | succ fuel =>
          obtain ⟨hm, htexts⟩ := List.forall_mem_cons.mp h
          have hlength := length_memberText m.1 m.2.1
          rw [List.flatMap_cons, List.length_append, List.length_cons] at hfuel
          have hbehind := ih htexts fuel (by omega)
          have hvalue := hm fuel _ (by omega)
            (atBreak_behind texts (fun m ↦ memberText m.1 m.2.1) (Or.inr rfl) rest)
          have hcons := (readMembers_cons (readString_escaped m.1 _) hvalue hbehind).2
          rw [← encodeChars_memberText] at hcons
          simpa [utf8EncodeChar_comma] using hcons

/-- An object is read from its keys and the texts of its values.  They may stand in any order, and of
equal keys the last one counts. -/
theorem readsAs_object (h : ∀ m ∈ texts, ReadsAs room m.2.1 m.2.2) :
    ReadsAs (room + 1)
      ('\x7b' :: joined (texts.map fun m ↦ memberText m.1 m.2.1) ++ ['\x7d'])
      (ofMembers (texts.map fun m ↦ (m.1, m.2.2))) := by
  generalize htext : joined (texts.map fun m ↦ memberText m.1 m.2.1) = text
  refine .of_succ (Nat.succ_pos _) fun fuel rest hfuel _ ↦ ?_
  have hprint : Utf8.encodeChars ('\x7b' :: text ++ ['\x7d']) ++ rest =
      0x7B :: (Utf8.encodeChars text ++ 0x7D :: rest) := by
    simp [String.utf8EncodeChar]
  have hmembers : readMembers fuel room true (Utf8.encodeChars text ++ 0x7D :: rest) =
      .ok (texts.map fun m ↦ (m.1, m.2.2), rest) := by
    have hlength : text.length + 1 ≤ fuel := by simpa using hfuel
    subst htext
    cases fuel with
    | zero => cases hlength
    | succ fuel =>
        cases texts with
        | nil => rfl
        | cons m texts =>
            obtain ⟨hm, htexts⟩ := List.forall_mem_cons.mp h
            have hfirst := length_memberText m.1 m.2.1
            rw [List.map_cons, joined_cons, List.flatMap_map, List.length_append] at hlength
            have hbehind := readMembers_behind htexts fuel (by omega) rest
            have hvalue := hm fuel _ (by omega)
              (atBreak_behind texts (fun m ↦ memberText m.1 m.2.1) (Or.inr rfl) rest)
            have hcons := (readMembers_cons (readString_escaped m.1 _) hvalue hbehind).1
            rw [List.map_cons, joined_cons, List.flatMap_map, Utf8.encodeChars_append,
              List.append_assoc, encodeChars_memberText]
            exact hcons
  have hread : readValue (fuel + 1) (room + 1)
      (Utf8.encodeChars ('\x7b' :: text ++ ['\x7d']) ++ rest) =
      (readMembers fuel room true (Utf8.encodeChars text ++ 0x7D :: rest)).map
        fun p ↦ (ofMembers p.1, p.2) := by
    rw [hprint]
    rfl
  rw [hread, hmembers]
  rfl

theorem readsBack_object (hordered : Assoc.Ordered members)
    (h : ∀ m ∈ members, ReadsBack room m.2) : ReadsBack (room + 1) (.object members) := by
  have hmembers : ∀ m ∈ members.map fun m ↦ (m.1, m.2.print, m.2), ReadsAs room m.2.1 m.2.2 :=
    List.forall_mem_map.mpr h
  have hobject := readsAs_object hmembers
  simp only [List.map_map, Function.comp_def, List.map_id'] at hobject
  have hprint : print (.object members) =
      '\x7b' :: joined (members.map printMember) ++ ['\x7d'] := by
    rw [print, printMembers_eq]
  have hsorted : ofMembers members = .object members := by
    rw [ofMembers, Assoc.ofList_of_ordered hordered]
  intro fuel rest
  rw [hprint, ← hsorted]
  exact hobject fuel rest

end Members

/-! ## Whole texts -/

theorem Plain.readsBack {room : Nat} {j : Json} (h : j.Plain room) : ReadsBack room j := by
  induction h with
  | null room => exact readsBack_null room
  | bool room b => exact readsBack_bool room b
  | whole room n => exact readsBack_whole room n
  | string room s => exact readsBack_string room s
  | array _ ih => exact readsBack_array ih
  | object ordered _ ih => exact readsBack_object ordered ih

theorem length_le_encodeChars (cs : List Char) : cs.length ≤ (Utf8.encodeChars cs).length := by
  induction cs with
  | nil => exact Nat.le_refl 0
  | cons c cs ih =>
      have hpos : 0 < (String.utf8EncodeChar c).length := by
        rw [String.length_utf8EncodeChar]
        exact c.utf8Size_pos
      rw [Utf8.encodeChars_cons, List.length_append, List.length_cons]
      omega

/-- A text with nothing behind it is read whole. -/
theorem ReadsAs.parse_ok {text : List Char} {j : Json} (h : ReadsAs maxDepth text j) :
    parse (Utf8.encodeChars text) = .ok j := by
  have hlength := length_le_encodeChars text
  have hread := h (2 * (Utf8.encodeChars text).length + 1) [] (by omega) atBreak_nil
  rw [List.append_nil] at hread
  rw [parse, hread]
  rfl

/-- What is printed is read as what it was. -/
theorem parse_render {j : Json} (h : j.Plain maxDepth) : parse (Utf8.encode j.render) = .ok j := by
  have hbytes : Utf8.encode j.render = Utf8.encodeChars j.print := by
    rw [Utf8.encode, render, String.toList_ofList]
  rw [hbytes]
  exact ReadsAs.parse_ok h.readsBack

end Json
end ReplicaClient
