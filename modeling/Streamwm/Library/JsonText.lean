import Mathlib.Data.List.Basic

/-!
# JSON texts

The grammar of JSON (RFC 8259) over lists of characters. `Text` has one symbol for each of its
productions; `IsJson` are the texts of one value between white space. The inside of a string
(`Chars`) ends at the first quote that no escape takes (`Chars.quote_inj`).

A program that builds an object by pasting a text between two quotes writes JSON iff the text
is the inside of a string, or leaves the string and goes on with a comma and members of the
object up to an open string (`isJson_paste_iff`).
-/

namespace Json

variable {a b c : Char} {l m r r' key pre body : List Char}

/-! ## The grammar -/

/-- White space. -/
def isBlank (c : Char) : Bool :=
  c == ' ' || c == '\t' || c == '\n' || c == '\r'

def Blank (l : List Char) : Prop :=
  ∀ c ∈ l, isBlank c = true

/-- Stands for itself inside a string. -/
structure Plain (c : Char) : Prop where
  quote : c ≠ '"'
  backslash : c ≠ '\\'
  control : 0x20 ≤ c.toNat

instance : Decidable (Plain c) :=
  decidable_of_iff (c ≠ '"' ∧ c ≠ '\\' ∧ 0x20 ≤ c.toNat)
    ⟨fun h => ⟨h.1, h.2.1, h.2.2⟩, fun h => ⟨h.quote, h.backslash, h.control⟩⟩

def isHex (c : Char) : Bool :=
  c.isDigit || ('a' ≤ c && c ≤ 'f') || ('A' ≤ c && c ≤ 'F')

/-- The inside of a string. -/
inductive Chars : List Char → Prop
  | nil : Chars []
  | plain {c : Char} {l : List Char} (hc : Plain c) (h : Chars l) : Chars (c :: l)
  | escape {c : Char} {l : List Char} (hc : "\"\\/bfnrt".toList.contains c = true) (h : Chars l) :
      Chars ('\\' :: c :: l)
  | unicode {digits l : List Char} (hlen : digits.length = 4) (hhex : digits.all isHex = true)
      (h : Chars l) : Chars ('\\' :: 'u' :: (digits ++ l))

structure Digits (l : List Char) : Prop where
  ne_nil : l ≠ []
  digits : l.all Char.isDigit = true

/-- A number : sign, integer, fraction and exponent. -/
inductive IsNumber : List Char → Prop
  | mk {sign int frac exp : List Char} (hsign : sign = [] ∨ sign = ['-'])
      (hint : int = ['0'] ∨ Digits int ∧ int.head? ≠ some '0')
      (hfrac : frac = [] ∨ ∃ d, frac = '.' :: d ∧ Digits d)
      (hexp : exp = [] ∨ ∃ e s d, exp = e :: (s ++ d) ∧ (e = 'e' ∨ e = 'E') ∧
        (s = [] ∨ s = ['+'] ∨ s = ['-']) ∧ Digits d) :
      IsNumber (sign ++ (int ++ (frac ++ exp)))

inductive Symbol
  | value
  | element
  | elements
  | member
  | members

/-- The texts of each symbol. -/
inductive Text : Symbol → List Char → Prop
  | nullLiteral : Text .value "null".toList
  | trueLiteral : Text .value "true".toList
  | falseLiteral : Text .value "false".toList
  | number {l : List Char} (h : IsNumber l) : Text .value l
  | string {l : List Char} (h : Chars l) : Text .value ('"' :: (l ++ ['"']))
  | emptyArray {l : List Char} (h : Blank l) : Text .value ('[' :: (l ++ [']']))
  | array {l : List Char} (h : Text .elements l) : Text .value ('[' :: (l ++ [']']))
  | emptyObject {l : List Char} (h : Blank l) : Text .value ('\x7b' :: (l ++ ['\x7d']))
  | object {l : List Char} (h : Text .members l) : Text .value ('\x7b' :: (l ++ ['\x7d']))
  | element {w l w' : List Char} (hw : Blank w) (h : Text .value l) (hw' : Blank w') :
      Text .element (w ++ (l ++ w'))
  | lastElement {l : List Char} (h : Text .element l) : Text .elements l
  | elements {l m : List Char} (h : Text .element l) (hm : Text .elements m) :
      Text .elements (l ++ ',' :: m)
  | member {w key w' l : List Char} (hw : Blank w) (hkey : Chars key) (hw' : Blank w')
      (h : Text .element l) : Text .member (w ++ '"' :: (key ++ '"' :: (w' ++ ':' :: l)))
  | lastMember {l : List Char} (h : Text .member l) : Text .members l
  | members {l m : List Char} (h : Text .member l) (hm : Text .members m) :
      Text .members (l ++ ',' :: m)

/-- One value between white space. -/
def IsJson (l : List Char) : Prop :=
  Text .element l

theorem blank_nil : Blank [] :=
  List.forall_mem_nil _

/-! ## Strings -/

theorem Chars.of_plain (h : ∀ c ∈ l, Plain c) : Chars l := by
  induction l with
  | nil => exact .nil
  | cons c l ih =>
    rw [List.forall_mem_cons] at h
    exact .plain h.1 (ih h.2)

/-- The string ends at the same quote for every reader. -/
theorem Chars.quote_inj (h : Chars l) (h' : Chars m) (heq : l ++ '"' :: r = m ++ '"' :: r') :
    l = m ∧ r = r' := by
  induction h generalizing m with
  | nil =>
    cases h' with
    | nil => exact ⟨rfl, (List.cons.inj heq).2⟩
    | plain hc _ => exact absurd (List.cons.inj heq).1.symm hc.quote
    | escape _ _ => simp at heq
    | unicode _ _ _ => simp at heq
  | plain hc _ ih =>
    cases h' with
    | nil => exact absurd (List.cons.inj heq).1 hc.quote
    | plain hd hm =>
      obtain ⟨rfl, htail⟩ := List.cons.inj heq
      obtain ⟨rfl, hr⟩ := ih hm htail
      exact ⟨rfl, hr⟩
    | escape _ _ => exact absurd (List.cons.inj heq).1 hc.backslash
    | unicode _ _ _ => exact absurd (List.cons.inj heq).1 hc.backslash
  | escape hc _ ih =>
    cases h' with
    | nil => simp at heq
    | plain hd _ => exact absurd (List.cons.inj heq).1.symm hd.backslash
    | escape _ hm =>
      simp only [List.cons_append, List.cons.injEq, true_and] at heq
      obtain ⟨rfl, htail⟩ := heq
      obtain ⟨rfl, hr⟩ := ih hm htail
      exact ⟨rfl, hr⟩
    | unicode _ _ _ =>
      simp only [List.cons_append, List.cons.injEq, true_and] at heq
      rw [heq.1] at hc
      cases hc
  | unicode hlen _ _ ih =>
    cases h' with
    | nil => simp at heq
    | plain hd _ => exact absurd (List.cons.inj heq).1.symm hd.backslash
    | escape hc _ =>
      simp only [List.cons_append, List.cons.injEq, true_and] at heq
      rw [← heq.1] at hc
      cases hc
    | unicode hlen' _ hm =>
      simp only [List.cons_append, List.cons.injEq, true_and, List.append_assoc] at heq
      obtain ⟨rfl, htail⟩ := List.append_inj heq (hlen.trans hlen'.symm)
      obtain ⟨rfl, hr⟩ := ih hm htail
      exact ⟨rfl, hr⟩

theorem not_chars_quote : ¬Chars ('"' :: l) := by
  intro h
  generalize hl : '"' :: l = text at h
  cases h with
  | nil => cases hl
  | plain hc _ => exact hc.quote (List.cons.inj hl).1.symm
  | escape _ _ => simp at hl
  | unicode _ _ _ => simp at hl

/-- Plain characters at the front are no part of an escape. -/
theorem Chars.of_append (ha : ∀ c ∈ pre, Plain c) (h : Chars (pre ++ l)) : Chars l := by
  induction pre with
  | nil => exact h
  | cons c pre ih =>
    rw [List.forall_mem_cons] at ha
    rw [List.cons_append] at h
    generalize hl : c :: (pre ++ l) = text at h
    cases h with
    | nil => cases hl
    | plain _ hrest =>
      obtain ⟨-, rfl⟩ := List.cons.inj hl
      exact ih ha.2 hrest
    | escape _ _ => exact absurd (List.cons.inj hl).1 ha.1.backslash
    | unicode _ _ _ => exact absurd (List.cons.inj hl).1 ha.1.backslash

theorem Chars.append_plain (ha : ∀ c ∈ pre, Plain c) (h : Chars l) : Chars (pre ++ l) := by
  induction pre with
  | nil => exact h
  | cons c pre ih =>
    rw [List.forall_mem_cons] at ha
    exact .plain ha.1 (ih ha.2)

/-! ## The first character of a value -/

theorem Digits.head (h : Digits (c :: l)) : c.isDigit = true := by
  have hall := h.digits
  rw [List.all_cons, Bool.and_eq_true] at hall
  exact hall.1

theorem IsNumber.head (h : IsNumber (c :: l)) : c = '-' ∨ c.isDigit = true := by
  generalize hl : c :: l = text at h
  obtain ⟨hsign, hint, -, -⟩ := h
  rcases hsign with rfl | rfl
  · right
    rcases hint with rfl | ⟨hdigits, -⟩
    · rw [(List.cons.inj hl).1]
      decide
    · obtain ⟨d, ds, rfl⟩ := List.exists_cons_of_ne_nil hdigits.ne_nil
      rw [(List.cons.inj hl).1]
      exact hdigits.head
  · exact Or.inl (List.cons.inj hl).1

theorem not_isNumber (hc : c ≠ '-') (hdigit : c.isDigit = false) : ¬IsNumber (c :: l) := by
  intro h
  rcases h.head with heq | hd
  · exact hc heq
  · rw [hdigit] at hd
    cases hd

theorem IsNumber.ne_nil (h : IsNumber l) : l ≠ [] := by
  obtain ⟨-, hint, -, -⟩ := h
  rcases hint with rfl | ⟨hdigits, -⟩
  · simp
  · simp [hdigits.ne_nil]

theorem Text.value_ne_nil (h : Text .value l) : l ≠ [] := by
  cases h with
  | number h => exact h.ne_nil
  | _ => simp

theorem Text.value_string (h : Text .value ('"' :: r)) : ∃ body, Chars body ∧ r = body ++ ['"'] := by
  generalize hl : '"' :: r = text at h
  cases h with
  | string hbody => exact ⟨_, hbody, (List.cons.inj hl).2⟩
  | number hnumber => exact absurd (hl ▸ hnumber) (not_isNumber (by decide) (by decide))
  | _ => exact absurd (List.cons.inj hl).1 (by decide)

theorem Text.value_object (h : Text .value ('\x7b' :: r)) :
    (∃ w, Blank w ∧ r = w ++ ['\x7d']) ∨ ∃ m, Text .members m ∧ r = m ++ ['\x7d'] := by
  generalize hl : '\x7b' :: r = text at h
  cases h with
  | emptyObject hw => exact Or.inl ⟨_, hw, (List.cons.inj hl).2⟩
  | object hm => exact Or.inr ⟨_, hm, (List.cons.inj hl).2⟩
  | number hnumber => exact absurd (hl ▸ hnumber) (not_isNumber (by decide) (by decide))
  | _ => exact absurd (List.cons.inj hl).1 (by decide)

/-- White space ends before a character that is none. -/
theorem Blank.eq_nil {w : List Char} (hw : Blank w) (hc : isBlank c = false)
    (heq : c :: l = w ++ m) : w = [] := by
  cases w with
  | nil => rfl
  | cons d w =>
    have hd := hw d List.mem_cons_self
    rw [← (List.cons.inj heq).1, hc] at hd
    cases hd

/-- An element that begins with a character of a value. -/
theorem Text.element_cons (h : Text .element (c :: l)) (hc : isBlank c = false) :
    ∃ v w, c :: l = v ++ w ∧ Text .value v ∧ Blank w := by
  generalize hl : c :: l = text at h
  cases h with
  | element hw hvalue hw' =>
    obtain rfl := hw.eq_nil hc hl
    refine ⟨_, _, ?_, hvalue, hw'⟩
    rfl

/-- White space at the end ends in white space. -/
theorem Blank.eq_nil_of_append {w : List Char} (hw : Blank w) (hc : isBlank c = false)
    (heq : l ++ [c] = m ++ w) : w = [] := by
  rcases List.eq_nil_or_concat w with rfl | ⟨w', d, rfl⟩
  · rfl
  · rw [List.concat_eq_append, ← List.append_assoc] at heq
    have hd := hw d (by simp)
    rw [← List.singleton_inj.mp (List.append_inj_right' heq rfl), hc] at hd
    cases hd

/-! ## Pasting into a string -/

/-- An object. -/
theorem isJson_object_iff :
    IsJson ('\x7b' :: (l ++ ['\x7d'])) ↔ Blank l ∨ Text .members l := by
  constructor
  · intro h
    obtain ⟨v, w, heq, hvalue, hw⟩ := h.element_cons (by decide)
    obtain rfl := hw.eq_nil_of_append (l := '\x7b' :: l) (by decide) heq
    rw [List.append_nil] at heq
    rw [← heq] at hvalue
    rcases hvalue.value_object with ⟨w, hw, hl⟩ | ⟨m, hm, hl⟩
    · exact Or.inl (List.append_cancel_right hl ▸ hw)
    · exact Or.inr (List.append_cancel_right hl ▸ hm)
  · intro h
    have hvalue : Text .value ('\x7b' :: (l ++ ['\x7d'])) := h.elim .emptyObject .object
    have helement : Text .element ([] ++ ('\x7b' :: (l ++ ['\x7d']) ++ [])) :=
      .element blank_nil hvalue blank_nil
    rwa [List.nil_append, List.append_nil] at helement

/-- A member whose key is known. -/
theorem Text.member_cons (h : Text .member m) (hkey : Chars key)
    (heq : m ++ r = '"' :: (key ++ '"' :: ':' :: r')) : ∃ e, Text .element e ∧ e ++ r = r' := by
  cases h with
  | member hw hkey' hw' he =>
    rw [List.append_assoc] at heq
    obtain rfl := hw.eq_nil (by decide) heq.symm
    simp only [List.nil_append, List.cons_append, List.append_assoc, List.cons.injEq,
      true_and] at heq
    obtain ⟨rfl, hrest⟩ := hkey'.quote_inj hkey heq
    obtain rfl := hw'.eq_nil (by decide) hrest.symm
    exact ⟨_, he, (List.cons.inj hrest).2⟩

/-- An element that begins with a quote. -/
theorem Text.element_quote (h : Text .element m) (heq : m ++ r = '"' :: r') :
    ∃ body w, Chars body ∧ Blank w ∧ r' = body ++ '"' :: (w ++ r) := by
  cases m with
  | nil =>
    generalize hnil : [] = text at h
    cases h with
    | element hw hvalue hw' => simp [hvalue.value_ne_nil] at hnil
  | cons c m =>
    obtain ⟨rfl, rfl⟩ := List.cons.inj heq
    obtain ⟨v, w, hsplit, hvalue, hw⟩ := h.element_cons (by decide)
    obtain ⟨d, v, rfl⟩ := List.exists_cons_of_ne_nil hvalue.value_ne_nil
    obtain ⟨rfl, rfl⟩ := List.cons.inj hsplit
    obtain ⟨body, hbody, rfl⟩ := hvalue.value_string
    exact ⟨body, w, hbody, hw, by simp⟩

/-- Members of which the first has a known key and a string. -/
theorem Text.members_quote (h : Text .members ('"' :: (key ++ '"' :: ':' :: '"' :: r)))
    (hkey : Chars key) : ∃ body w, Chars body ∧ Blank w ∧ (r = body ++ '"' :: w ∨
      ∃ m, Text .members m ∧ r = body ++ '"' :: (w ++ ',' :: m)) := by
  generalize htext : '"' :: (key ++ '"' :: ':' :: '"' :: r) = text at h
  cases h with
  | lastMember hmember =>
    obtain ⟨e, he, hrest⟩ := hmember.member_cons (r := []) hkey (by rw [List.append_nil, htext])
    obtain ⟨body, w, hbody, hw, hr⟩ := he.element_quote hrest
    exact ⟨body, w, hbody, hw, Or.inl (by rwa [List.append_nil] at hr)⟩
  | members hmember hm =>
    obtain ⟨e, he, hrest⟩ := hmember.member_cons hkey htext.symm
    obtain ⟨body, w, hbody, hw, hr⟩ := he.element_quote hrest
    exact ⟨body, w, hbody, hw, Or.inr ⟨_, hm, hr⟩⟩

theorem Text.members_of_quote (hkey : Chars key) (hbody : Chars body) {w : List Char}
    (hw : Blank w) : Text .member ('"' :: (key ++ '"' :: ':' :: '"' :: (body ++ '"' :: w))) := by
  have helement : Text .element ([] ++ ('"' :: (body ++ ['"']) ++ w)) :=
    .element blank_nil (.string hbody) hw
  have hmember : Text .member ([] ++ '"' :: (key ++ '"' :: ([] ++ ':' ::
      ([] ++ ('"' :: (body ++ ['"']) ++ w))))) := .member blank_nil hkey blank_nil helement
  simpa using hmember

/-- The text leaves the string and goes on with a comma and members, up to an open string. -/
def Continues (l : List Char) : Prop :=
  ∃ b w m, l = b ++ '"' :: (w ++ ',' :: m) ∧ Chars b ∧ Blank w ∧ Text .members (m ++ ['"'])

/-- A string that begins with plain characters and ends within a text. -/
theorem exists_of_quote (hpre : ∀ c ∈ pre, Plain c) (hbody : Chars body)
    (heq : pre ++ l = body ++ '"' :: r) : ∃ b, l = b ++ '"' :: r ∧ Chars b := by
  rcases List.append_eq_append_iff.mp heq with ⟨b, rfl, hl⟩ | ⟨b, hsplit, hl⟩
  · exact ⟨b, hl, hbody.of_append hpre⟩
  · cases b with
    | nil => exact ⟨[], hl.symm, .nil⟩
    | cons c b =>
      rw [← (List.cons.inj hl).1] at hsplit
      exact absurd rfl (hpre '"' (by simp [hsplit])).quote

/-- A text pasted between quotes as the value of the only member of an object, after some plain
characters. -/
theorem isJson_paste_iff (hkey : Chars key) (hpre : ∀ c ∈ pre, Plain c) :
    IsJson ('\x7b' :: ('"' :: (key ++ '"' :: ':' :: '"' :: (pre ++ (l ++ ['"']))) ++ ['\x7d'])) ↔
      Chars l ∨ Continues l := by
  rw [isJson_object_iff, or_iff_right fun hblank => absurd (hblank '"' (by simp)) (by decide)]
  constructor
  · intro h
    obtain ⟨body, w, hbody, hw, heq | ⟨m, hm, heq⟩⟩ := h.members_quote hkey
    · left
      have hend : (pre ++ l) ++ ['"'] = (body ++ ['"']) ++ w := by simpa using heq
      obtain rfl := hw.eq_nil_of_append (by decide) hend
      rw [List.append_nil] at hend
      rw [← List.append_cancel_right hend] at hbody
      exact hbody.of_append hpre
    · right
      rcases List.eq_nil_or_concat m with rfl | ⟨m, d, rfl⟩
      · have hend : (pre ++ l) ++ ['"'] = (body ++ '"' :: w) ++ [','] := by simpa using heq
        exact absurd (List.append_inj_right' hend rfl) (by decide)
      · have hend : (pre ++ l) ++ ['"'] = (body ++ '"' :: (w ++ ',' :: m)) ++ [d] := by
          simpa using heq
        obtain ⟨hrest, hd⟩ := List.append_inj' hend rfl
        obtain ⟨b, hl, hb⟩ := exists_of_quote hpre hbody hrest
        rw [List.concat_eq_append, ← hd] at hm
        exact ⟨b, w, m, hl, hb, hw, hm⟩
  · rintro (hl | ⟨b, w, m, rfl, hb, hw, hm⟩)
    · have hmember := Text.members_of_quote hkey (hl.append_plain hpre) blank_nil
      exact .lastMember (by simpa using hmember)
    · have hmembers := Text.members (Text.members_of_quote hkey (hb.append_plain hpre) hw) hm
      simpa using hmembers

theorem plain_of_all (h : l.all (fun c => decide (Plain c)) = true) : ∀ c ∈ l, Plain c :=
  fun c hc => of_decide_eq_true (List.all_eq_true.mp h c hc)

/-- An object with one string, both plain. -/
theorem isJson_message (hkey : ∀ c ∈ key, Plain c) (hpre : ∀ c ∈ pre, Plain c) :
    IsJson ('\x7b' :: ('"' :: (key ++ '"' :: ':' :: '"' :: (pre ++ ['"'])) ++ ['\x7d'])) :=
  (isJson_paste_iff (.of_plain hkey) hpre).mpr (Or.inl .nil)

/-- The inside of a string is on one line. -/
theorem Chars.newline_notMem (h : Chars l) : '\n' ∉ l := by
  induction h with
  | nil => simp
  | plain hc _ ih =>
    rintro (_ | ⟨_, hmem⟩)
    · exact absurd hc.control (by decide)
    · exact ih hmem
  | escape hc _ ih =>
    rintro (_ | ⟨_, _ | ⟨_, hmem⟩⟩)
    · cases hc
    · exact ih hmem
  | unicode _ hhex _ ih =>
    intro hmem
    simp only [List.mem_cons, List.mem_append] at hmem
    rcases hmem with h | h | h | h
    · cases h
    · cases h
    · exact absurd (List.all_eq_true.mp hhex _ h) (by decide)
    · exact ih h

end Json
