import Mathlib.Data.List.Basic

/-!
# The words of a shell command

Token recognition of the POSIX shell, as far as a command consists of plain words : blanks
separate words, newlines commands, and a `#` that begins a word begins a comment up to the end
of the line. A character of quoting, expansion or operators outside a comment has a meaning
this does not go into; then `simpleCommands` is `none`. A plain word reaches the program as it
stands.

`words p` are the words of a text under any notion of separator. A text has a comment iff one
of its words begins with `#` (`uncomment_eq_self_iff`), and the words of all commands are the
words of the text without its comments (`flatten_simpleCommands`).
-/

namespace ShellWords

variable {p q : Char → Bool} {a c : Char} {l lead trail : List Char}

/-! ## Words -/

/-- The maximal parts without separators. -/
def words (p : Char → Bool) (l : List Char) : List (List Char) :=
  (l.splitOnP p).filter fun w => !w.isEmpty

theorem exists_splitOnP (p : Char → Bool) (l : List Char) : ∃ w ws, l.splitOnP p = w :: ws :=
  List.exists_cons_of_ne_nil (List.splitOnP_ne_nil p l)

theorem splitOnP_cons_pos (hc : p c = true) : (c :: l).splitOnP p = [] :: l.splitOnP p := by
  rw [List.splitOnP_cons_eq_if_modifyHead, if_pos hc]

theorem splitOnP_cons_neg (hc : p c = false) :
    (c :: l).splitOnP p = (l.splitOnP p).modifyHead (c :: ·) := by
  rw [List.splitOnP_cons_eq_if_modifyHead, if_neg (by simp [hc])]

/-- Nothing but the separators is lost. -/
theorem flatten_splitOnP : (l.splitOnP p).flatten = l.filter fun c => !p c := by
  induction l with
  | nil => rfl
  | cons c l ih =>
    cases hc : p c with
    | true => simp [splitOnP_cons_pos hc, hc, ih]
    | false =>
      obtain ⟨w, ws, h⟩ := exists_splitOnP p l
      rw [h] at ih
      simp only [List.flatten_cons] at ih
      simp [splitOnP_cons_neg hc, h, hc, ih]

theorem flatten_words : (words p l).flatten = l.filter fun c => !p c := by
  rw [words, List.flatten_filter_not_isEmpty, flatten_splitOnP]

theorem splitOnP_congr (h : ∀ c ∈ l, p c = q c) : l.splitOnP p = l.splitOnP q := by
  induction l with
  | nil => rfl
  | cons c l ih =>
    rw [List.forall_mem_cons] at h
    rw [List.splitOnP_cons_eq_if_modifyHead, List.splitOnP_cons_eq_if_modifyHead, h.1, ih h.2]

theorem words_congr (h : ∀ c ∈ l, p c = q c) : words p l = words q l := by
  rw [words, words, splitOnP_congr h]

theorem words_cons_pos (hc : p c = true) : words p (c :: l) = words p l := by
  simp [words, splitOnP_cons_pos hc]

theorem words_eq_nil (h : ∀ c ∈ l, p c = true) : words p l = [] := by
  induction l with
  | nil => rfl
  | cons c l ih =>
    rw [List.forall_mem_cons] at h
    rw [words_cons_pos h.1, ih h.2]

theorem splitOnP_append (h : ∀ c ∈ trail, p c = true) :
    (l ++ trail).splitOnP p = l.splitOnP p ++ List.replicate trail.length [] := by
  induction l with
  | nil =>
    induction trail with
    | nil => rfl
    | cons c trail ih =>
      rw [List.forall_mem_cons] at h
      rw [List.nil_append, splitOnP_cons_pos h.1]
      exact congrArg ([] :: ·) (ih h.2)
  | cons c l ih =>
    rw [List.cons_append]
    cases hc : p c with
    | true => rw [splitOnP_cons_pos hc, splitOnP_cons_pos hc, ih, List.cons_append]
    | false =>
      obtain ⟨w, ws, hws⟩ := exists_splitOnP p l
      rw [splitOnP_cons_neg hc, splitOnP_cons_neg hc, ih, hws]
      rfl

/-- Separators at the end make no words. -/
theorem words_append (h : ∀ c ∈ trail, p c = true) : words p (l ++ trail) = words p l := by
  rw [words, splitOnP_append h, List.filter_append, words]
  simp

/-- The words of the lines are the words of the text. -/
theorem flatten_words_lines (p q : Char → Bool) (l : List Char) :
    ((l.splitOnP q).map (words p)).flatten = words (fun c => p c || q c) l := by
  have hsplit : ((l.splitOnP q).map (List.splitOnP p)).flatten =
      l.splitOnP fun c => p c || q c := by
    induction l with
    | nil => rfl
    | cons c l ih =>
      obtain ⟨line, lines, h⟩ := exists_splitOnP q l
      rw [h, List.map_cons, List.flatten_cons] at ih
      obtain ⟨w, ws, hws⟩ := exists_splitOnP p line
      cases hq : q c with
      | true =>
        rw [splitOnP_cons_pos hq, splitOnP_cons_pos (by simp [hq]), h, ← ih]
        rfl
      | false =>
        rw [splitOnP_cons_neg hq, h, List.modifyHead_cons, List.map_cons, List.flatten_cons]
        cases hp : p c with
        | true => rw [splitOnP_cons_pos hp, splitOnP_cons_pos (by simp [hp]), ← ih]; rfl
        | false =>
          rw [splitOnP_cons_neg hp, splitOnP_cons_neg (by simp [hp, hq]), ← ih, hws]
          rfl
  rw [words, ← hsplit, List.filter_flatten, List.map_map]
  rfl

/-! ## What begins a word -/

/-- Some word begins with the character; `start` tells whether a word may begin here. -/
def begins (p : Char → Bool) (a : Char) : Bool → List Char → Bool
  | _, [] => false
  | start, c :: l => start && c == a || begins p a (p c) l

theorem begins_iff (ha : p a = false) : (begins p a true l = true ↔
    ∃ w ∈ l.splitOnP p, w.head? = some a) ∧
      (begins p a false l = true ↔ ∃ w ∈ (l.splitOnP p).tail, w.head? = some a) := by
  induction l with
  | nil => simp [begins]
  | cons c l ih =>
    obtain ⟨w, ws, h⟩ := exists_splitOnP p l
    rw [h] at ih
    cases hc : p c with
    | true =>
      have hne : c ≠ a := fun heq => by rw [heq, ha] at hc; cases hc
      simp [begins, splitOnP_cons_pos hc, h, hc, hne, ih.1]
    | false => simp [begins, splitOnP_cons_neg hc, h, hc, ih.2]

/-- With more separators more words begin. -/
theorem begins_mono {start start' : Bool} (hpq : ∀ c ∈ l, p c = true → q c = true)
    (hstart : start = true → start' = true) (h : begins p a start l = true) :
    begins q a start' l = true := by
  induction l generalizing start start' with
  | nil => simp [begins] at h
  | cons c l ih =>
    rw [List.forall_mem_cons] at hpq
    simp only [begins, Bool.or_eq_true, Bool.and_eq_true] at h ⊢
    exact h.imp (fun hc => ⟨hstart hc.1, hc.2⟩) (ih hpq.2 hpq.1)

theorem begins_of_append {start : Bool} (ha : a ∉ lead) (h : begins p a start (lead ++ l) = true) :
    begins p a true l = true := by
  induction lead generalizing start with
  | nil => exact begins_mono (fun _ _ => id) (fun _ => rfl) h
  | cons c lead ih =>
    rw [List.mem_cons, not_or] at ha
    simp only [List.cons_append, begins, Bool.or_eq_true, Bool.and_eq_true, beq_iff_eq] at h
    exact ih ha.2 (h.resolve_left fun hc => ha.1 hc.2.symm)

theorem begins_append {start : Bool} (ha : a ∉ trail) :
    begins p a start (l ++ trail) = begins p a start l := by
  induction l generalizing start with
  | nil =>
    induction trail generalizing start with
    | nil => rfl
    | cons c trail ih =>
      rw [List.mem_cons, not_or] at ha
      have hne : (c == a) = false := by simpa using Ne.symm ha.1
      rw [List.nil_append] at ih
      simp only [List.nil_append, begins, hne, Bool.and_false, Bool.false_or]
      exact ih ha.2
  | cons c l ih => rw [List.cons_append, begins, begins, ih]

/-- A word begins with the character. -/
theorem exists_words_iff (ha : p a = false) :
    (∃ w ∈ words p l, w.head? = some a) ↔ begins p a true l = true := by
  rw [(begins_iff ha).1]
  constructor
  · rintro ⟨w, hw, hhead⟩
    exact ⟨w, List.mem_of_mem_filter hw, hhead⟩
  · rintro ⟨w, hw, hhead⟩
    refine ⟨w, List.mem_filter.mpr ⟨hw, ?_⟩, hhead⟩
    cases w with
    | nil => cases hhead
    | cons => rfl

/-! ## Commands -/

def blank (c : Char) : Bool :=
  c == ' ' || c == '\t'

def newline (c : Char) : Bool :=
  c == '\n'

/-- Ends a word. -/
def separates (c : Char) : Bool :=
  blank c || newline c

/-- The characters of quoting, expansion and operators. -/
def special (c : Char) : Bool :=
  -- braces and `!` are reserved words, and `]` only closes what `[` opens
  "|&;<>()$`\\\"'*?[~=".toList.contains c

/-- Where the next character stands : where a word may begin, inside one, or in a comment. -/
inductive Place
  | start
  | word
  | comment

/-- The place after a character that is not in a comment. -/
def Place.after (c : Char) : Place :=
  if separates c then start else word

/-- The text without its comments. -/
def uncomment : Place → List Char → List Char
  | _, [] => []
  | .start, c :: l => if c = '#' then uncomment .comment l else c :: uncomment (.after c) l
  | .word, c :: l => c :: uncomment (.after c) l
  | .comment, c :: l => if c = '\n' then c :: uncomment .start l else uncomment .comment l

/-- The words of the commands of a text without comments. -/
def commands (text : List Char) : List (List (List Char)) :=
  ((text.splitOnP newline).map (words blank)).filter fun ws => !ws.isEmpty

/-- The commands of a line of plain words. -/
def simpleCommands (line : List Char) : Option (List (List (List Char))) :=
  if (uncomment .start line).any special then none else some (commands (uncomment .start line))

/-- The argument lists a shell passes to programs. A command that begins with a word of the
shell's own, a reserved word, builtin, alias or function, is none. -/
def programs (own : List Char → Bool) (line : List Char) : Option (List (List (List Char))) :=
  (simpleCommands line).filter fun cs => cs.all fun ws => !own (ws.headD [])

theorem Place.after_of_separates (hc : separates c = true) : Place.after c = start :=
  if_pos hc

theorem Place.after_of_not_separates (hc : separates c = false) : Place.after c = word :=
  if_neg (by simp [hc])

theorem length_uncomment_le (place : Place) (l : List Char) :
    (uncomment place l).length ≤ l.length := by
  fun_induction uncomment place l <;> simp <;> omega

/-- Nothing is dropped iff no word begins with `#`. -/
theorem uncomment_eq_self_iff :
    (uncomment .start l = l ↔ begins separates '#' true l = false) ∧
      (uncomment .word l = l ↔ begins separates '#' false l = false) := by
  induction l with
  | nil => simp [uncomment, begins]
  | cons c l ih =>
    have hrest : uncomment (.after c) l = l ↔ begins separates '#' (separates c) l = false := by
      cases hc : separates c with
      | true => rw [Place.after_of_separates hc, ih.1]
      | false => rw [Place.after_of_not_separates hc, ih.2]
    refine ⟨?_, by simp [uncomment, begins, hrest]⟩
    by_cases hc : c = '#'
    · have hlen := length_uncomment_le .comment l
      refine iff_of_false (fun heq => ?_) (by simp [begins, hc])
      rw [uncomment, if_pos hc] at heq
      rw [heq, List.length_cons] at hlen
      omega
    · simp [uncomment, begins, hc, hrest]

/-- No comment is left. -/
theorem uncomment_uncomment : uncomment .start (uncomment .start l) = uncomment .start l ∧
    uncomment .word (uncomment .word l) = uncomment .word l ∧
      uncomment .start (uncomment .comment l) = uncomment .comment l ∧
        uncomment .word (uncomment .comment l) = uncomment .comment l := by
  induction l with
  | nil => simp [uncomment]
  | cons c l ih =>
    obtain ⟨hstart, hword, hcomment, hcomment'⟩ := ih
    have hrest : uncomment (.after c) (uncomment (.after c) l) = uncomment (.after c) l := by
      cases hc : separates c with
      | true => rw [Place.after_of_separates hc, hstart]
      | false => rw [Place.after_of_not_separates hc, hword]
    have hnewline : Place.after '\n' = .start := rfl
    refine ⟨?_, by simp [uncomment, hrest], ?_, ?_⟩
    · by_cases hc : c = '#'
      · simp [uncomment, hc, hcomment]
      · simp [uncomment, hc, hrest]
    · by_cases hc : c = '\n'
      · simp [uncomment, hc, hnewline, hstart]
      · simp [uncomment, hc, hcomment]
    · by_cases hc : c = '\n'
      · simp [uncomment, hc, hnewline, hstart]
      · simp [uncomment, hc, hcomment']

/-- The words of all commands, one after the other. -/
theorem flatten_commands : (commands l).flatten = words separates l := by
  rw [commands, List.flatten_filter_not_isEmpty]
  exact flatten_words_lines blank newline l

theorem commands_cons (hc : separates c = true) : commands (c :: l) = commands l := by
  cases hn : newline c with
  | true => simp [commands, splitOnP_cons_pos hn, words]
  | false =>
    have hblank : blank c = true := by simpa [separates, hn] using hc
    obtain ⟨line, lines, h⟩ := exists_splitOnP newline l
    simp [commands, splitOnP_cons_neg hn, h, words_cons_pos hblank]

/-- The first line ends in blanks, the others are blank. -/
theorem exists_lines {line : List Char} (htrail : ∀ c ∈ trail, separates c = true)
    (hline : ∀ c ∈ line, newline c = false) :
    ∃ b lines, (line ++ trail).splitOnP newline = (line ++ b) :: lines ∧
      (∀ c ∈ b, blank c = true) ∧ ∀ l ∈ lines, ∀ c ∈ l, blank c = true := by
  induction line with
  | nil =>
    induction trail with
    | nil => exact ⟨[], [], rfl, by simp, by simp⟩
    | cons c trail ih =>
      rw [List.forall_mem_cons] at htrail
      obtain ⟨b, lines, h, hb, hlines⟩ := ih htrail.2
      rw [List.nil_append, List.nil_append] at h
      cases hn : newline c with
      | true =>
        refine ⟨[], b :: lines, ?_, by simp, List.forall_mem_cons.mpr ⟨hb, hlines⟩⟩
        rw [List.nil_append, splitOnP_cons_pos hn, h, List.nil_append]
      | false =>
        have hblank : blank c = true := by simpa [separates, hn] using htrail.1
        refine ⟨c :: b, lines, ?_, List.forall_mem_cons.mpr ⟨hblank, hb⟩, hlines⟩
        rw [List.nil_append, splitOnP_cons_neg hn, h]
        rfl
  | cons c line ih =>
    rw [List.forall_mem_cons] at hline
    obtain ⟨b, lines, h, hb, hlines⟩ := ih hline.2
    refine ⟨b, lines, ?_, hb, hlines⟩
    rw [List.cons_append, splitOnP_cons_neg hline.1, h]
    rfl

/-- One line between blanks and newlines is one command. -/
theorem commands_line {line : List Char} (hlead : ∀ c ∈ lead, separates c = true)
    (htrail : ∀ c ∈ trail, separates c = true) (hline : ∀ c ∈ line, newline c = false)
    (hne : words blank line ≠ []) :
    commands (lead ++ (line ++ trail)) = [words blank line] := by
  induction lead with
  | nil =>
    obtain ⟨b, lines, h, hb, hlines⟩ := exists_lines htrail hline
    have hrest : (lines.map (words blank)).filter (fun ws => !ws.isEmpty) = [] := by
      rw [List.filter_eq_nil_iff, List.forall_mem_map]
      intro l hl
      simp [words_eq_nil (hlines l hl)]
    rw [List.nil_append, commands, h, List.map_cons, words_append hb,
      List.filter_cons_of_pos (by simpa using hne), hrest]
  | cons c lead ih =>
    rw [List.forall_mem_cons] at hlead
    rw [List.cons_append, commands_cons hlead.1, ih hlead.2]

end ShellWords
