import Mathlib.Data.List.TakeWhile
import Streamwm.Bindings
import Streamwm.Library.ShellWords

/-!
# Spawning without a shell

`spawn` gives a command to the shell only if it is blank or has one of the bytes
`shellSyntaxByte` lists; any other command is trimmed and split here. The two agree on most
such commands, but a `#` is not on the list, the text is trimmed of all white space although
the shell drops only spaces, tabs and newlines there, and it is split at form feeds.
`direct_args_iff` says exactly which accepted commands run the same either way.

A command is a list of characters, and the list of bytes is applied to its UTF-8 encoding.
-/

namespace Streamwm

open ShellWords

/-- `u8::is_ascii_whitespace`. -/
def isAsciiWhitespace (c : Char) : Bool :=
  c == ' ' || c == '\t' || c == '\n' || c == '\x0c' || c == '\r'

/-- The bytes that send a command to the shell. -/
def shellSyntaxByte (byte : UInt8) : Bool :=
  -- ' " \ | & ; < > ( ) $ ` * ? ~ { } [ ] = and the line ends
  [0x27, 0x22, 0x5c, 0x7c, 0x26, 0x3b, 0x3c, 0x3e, 0x28, 0x29, 0x24, 0x60, 0x2a, 0x3f, 0x7e, 0x7b,
    0x7d, 0x5b, 0x5d, 0x3d, 0x0a, 0x0d].contains byte

/-- The arguments of a command that needs no shell. -/
def directCommandArgs (command : List Char) : Option (List (List Char)) :=
  let trimmed := trim command
  if trimmed.isEmpty || (trimmed.flatMap String.utf8EncodeChar).any shellSyntaxByte then none
  else some (words isAsciiWhitespace trimmed)

variable {command : List Char} {args : List (List Char)}

/-! ## Trimming -/

theorem trim_split (h : trim command ≠ []) : command = command.takeWhile isWhitespace ++
    (trim command ++ (command.reverse.takeWhile isWhitespace).reverse) := by
  have hend : (command.dropWhile isWhitespace).reverse.dropWhile isWhitespace ≠ [] :=
    fun hnil => h (congrArg List.reverse hnil)
  have htake : command.reverse.takeWhile isWhitespace =
      (command.dropWhile isWhitespace).reverse.takeWhile isWhitespace := by
    conv_lhs => rw [← List.takeWhile_append_dropWhile (p := isWhitespace) (l := command)]
    rw [List.reverse_append, List.takeWhile_append, if_neg]
    intro hlen
    have hsplit := congrArg List.length (List.takeWhile_append_dropWhile
      (p := isWhitespace) (l := (command.dropWhile isWhitespace).reverse))
    rw [List.length_append, hlen] at hsplit
    exact hend (List.length_eq_zero_iff.mp (by omega))
  rw [htake, trim, ← List.reverse_append, List.takeWhile_append_dropWhile, List.reverse_reverse,
    List.takeWhile_append_dropWhile]

/-- What is left of a text ends in a character that is not white space. -/
theorem exists_mem_trim (h : trim command ≠ []) : ∃ c ∈ trim command, isWhitespace c = false := by
  have hend : (command.dropWhile isWhitespace).reverse.dropWhile isWhitespace ≠ [] :=
    fun hnil => h (congrArg List.reverse hnil)
  exact ⟨_, List.mem_reverse.mpr (List.head_mem hend), List.head_dropWhile_not _ hend⟩

/-! ## Accepted commands -/

theorem isWhitespace_of_isAsciiWhitespace {c : Char} (h : isAsciiWhitespace c = true) :
    isWhitespace c = true := by
  simp only [isAsciiWhitespace, Bool.or_eq_true, beq_iff_eq] at h
  rcases h with (((rfl | rfl) | rfl) | rfl) | rfl <;> decide

theorem special_eq_false_of_separates {c : Char} (h : separates c = true) : special c = false := by
  simp only [separates, blank, newline, Bool.or_eq_true, beq_iff_eq] at h
  rcases h with (rfl | rfl) | rfl <;> decide

/-- A character that the shell takes apart, or that ends a line, has a byte on the list. -/
theorem any_shellSyntaxByte {c : Char} (h : special c = true ∨ c = '\n' ∨ c = '\r') :
    (String.utf8EncodeChar c).any shellSyntaxByte = true := by
  have hspecial : ("|&;<>()$`\\\"'*?[~=".toList).all
      (fun c => (String.utf8EncodeChar c).any shellSyntaxByte) = true := by decide
  rcases h with h | rfl | rfl
  · exact List.all_eq_true.mp hspecial c (List.contains_iff_mem.mp h)
  · decide
  · decide

/-- What is known of an accepted command. -/
structure Accepted (command : List Char) (args : List (List Char)) : Prop where
  args_eq : args = words isAsciiWhitespace (trim command)
  ne_nil : trim command ≠ []
  plain : ∀ c ∈ trim command, special c = false
  oneLine : ∀ c ∈ trim command, c ≠ '\n' ∧ c ≠ '\r'

theorem accepted_of_directCommandArgs (h : directCommandArgs command = some args) :
    Accepted command args := by
  simp only [directCommandArgs] at h
  split_ifs at h with hsyntax
  simp only [Bool.or_eq_true, not_or, Bool.not_eq_true, List.isEmpty_eq_false_iff] at hsyntax
  have hplain : ∀ c ∈ trim command, ¬(special c = true ∨ c = '\n' ∨ c = '\r') := by
    intro c hc hspecial
    have hany := any_shellSyntaxByte hspecial
    rw [List.any_eq_true] at hany
    obtain ⟨byte, hbyte, hon⟩ := hany
    have hno := List.any_eq_false.mp hsyntax.2 byte (List.mem_flatMap.mpr ⟨c, hc, hbyte⟩)
    exact hno hon
  exact {
    args_eq := (Option.some.inj h).symm
    ne_nil := hsyntax.1
    plain := fun c hc => by simpa using fun hs => hplain c hc (Or.inl hs)
    oneLine := fun c hc => ⟨fun hn => hplain c hc (Or.inr (Or.inl hn)),
      fun hr => hplain c hc (Or.inr (Or.inr hr))⟩ }

theorem Accepted.ne_nil_args (h : Accepted command args) : args ≠ [] := by
  obtain ⟨c, hc, hwhite⟩ := exists_mem_trim h.ne_nil
  intro hnil
  have hflat := flatten_words (p := isAsciiWhitespace) (l := trim command)
  rw [← h.args_eq, hnil, List.flatten_nil] at hflat
  have hascii : isAsciiWhitespace c = false := by
    by_contra hascii
    rw [isWhitespace_of_isAsciiWhitespace (by simpa using hascii)] at hwhite
    cases hwhite
  exact List.filter_eq_nil_iff.mp hflat.symm c hc (by simp [hascii])

/-! ## When the shell runs the same -/

/-- The white space around the command is spaces, tabs and newlines, there is no form feed
inside, and no word begins a comment. -/
structure RunsAlike (command : List Char) : Prop where
  leading : ∀ c ∈ command.takeWhile isWhitespace, separates c = true
  trailing : ∀ c ∈ command.reverse.takeWhile isWhitespace, separates c = true
  formFeed : '\x0c' ∉ trim command
  comment : ∀ w ∈ words separates command, w.head? ≠ some '#'

theorem Accepted.blank_eq (h : Accepted command args) (hform : '\x0c' ∉ trim command) :
    ∀ c ∈ trim command, isAsciiWhitespace c = blank c := by
  intro c hc
  have hff : c ≠ '\x0c' := fun heq => hform (heq ▸ hc)
  rw [isAsciiWhitespace, beq_eq_false_iff_ne.mpr (h.oneLine c hc).1,
    beq_eq_false_iff_ne.mpr (h.oneLine c hc).2, beq_eq_false_iff_ne.mpr hff, Bool.or_false,
    Bool.or_false, Bool.or_false, blank]

theorem Accepted.simpleCommands_eq (h : Accepted command args) (halike : RunsAlike command) :
    simpleCommands command = some [args] := by
  have hargs : args = words blank (trim command) :=
    h.args_eq.trans (words_congr (h.blank_eq halike.formFeed))
  have hcomment : uncomment .start command = command := by
    rw [uncomment_eq_self_iff.1, ← Bool.not_eq_true, ← exists_words_iff (by decide)]
    rintro ⟨w, hw, hhead⟩
    exact halike.comment w hw hhead
  have hsplit := trim_split h.ne_nil
  have htrail : ∀ c ∈ (command.reverse.takeWhile isWhitespace).reverse, separates c = true :=
    fun c hc => halike.trailing c (List.mem_reverse.mp hc)
  have hplain : command.any special = false := by
    rw [hsplit, List.any_eq_false]
    intro c hc
    simp only [List.mem_append] at hc
    rcases hc with hc | hc | hc
    · simp [special_eq_false_of_separates (halike.leading c hc)]
    · simp [h.plain c hc]
    · simp [special_eq_false_of_separates (htrail c hc)]
  rw [simpleCommands, hcomment, hplain, if_neg (by simp), hargs]
  conv_lhs => rw [hsplit]
  refine congrArg some (commands_line halike.leading htrail (fun c hc => ?_) ?_)
  · simpa [newline] using (h.oneLine c hc).1
  · exact hargs ▸ h.ne_nil_args

theorem isAsciiWhitespace_of_separates {c : Char} (h : separates c = true) :
    isAsciiWhitespace c = true := by
  simp only [separates, blank, newline, Bool.or_eq_true, beq_iff_eq] at h
  rcases h with (rfl | rfl) | rfl <;> decide

theorem not_mem_of_isWhitespace {l : List Char} (h : ∀ c ∈ l, isWhitespace c = true) : '#' ∉ l :=
  fun hmem => absurd (h _ hmem) (by decide)

theorem isWhitespace_trailing :
    ∀ c ∈ (command.reverse.takeWhile isWhitespace).reverse, isWhitespace c = true :=
  fun _ hc => List.mem_takeWhile_imp (List.mem_reverse.mp hc)

/-- No argument begins with `#` : the shell would have dropped it. -/
theorem Accepted.comment (h : Accepted command args)
    (hargs : words separates (uncomment .start command) = args) :
    begins separates '#' true command = false := by
  have hnone : begins separates '#' true (uncomment .start command) = false :=
    uncomment_eq_self_iff.1.mp uncomment_uncomment.1
  rw [← Bool.not_eq_true, ← exists_words_iff (by decide), hargs, h.args_eq,
    exists_words_iff (by decide)] at hnone
  rw [← Bool.not_eq_true]
  intro hbegins
  rw [trim_split h.ne_nil] at hbegins
  have hinner := begins_of_append
    (not_mem_of_isWhitespace fun _ hc => List.mem_takeWhile_imp hc) hbegins
  rw [begins_append (not_mem_of_isWhitespace isWhitespace_trailing)] at hinner
  exact hnone (begins_mono (fun _ _ => isAsciiWhitespace_of_separates) id hinner)

/-- The two ways to split drop the same characters. -/
theorem Accepted.filter_eq (h : Accepted command args)
    (hargs : words separates command = args) :
    (∀ c ∈ command.takeWhile isWhitespace, separates c = true) ∧
      (∀ c ∈ command.reverse.takeWhile isWhitespace, separates c = true) ∧
        (trim command).filter (fun c => !separates c) =
          (trim command).filter fun c => !isAsciiWhitespace c := by
  have hflat : (command.filter fun c => !separates c) =
      (trim command).filter fun c => !isAsciiWhitespace c := by
    rw [← flatten_words, ← flatten_words, hargs, h.args_eq]
  have hle := (List.monotone_filter_right (trim command)
    (p := fun c => !isAsciiWhitespace c) (q := fun c => !separates c) fun c hc => by
      cases hs : separates c with
      | true => simp [isAsciiWhitespace_of_separates hs] at hc
      | false => rfl).length_le
  have hsplit := congrArg (List.filter fun c => !separates c) (trim_split h.ne_nil)
  rw [List.filter_append, List.filter_append, hflat] at hsplit
  have hlen := congrArg List.length hsplit
  rw [List.length_append, List.length_append] at hlen
  have hlead : (command.takeWhile isWhitespace).filter (fun c => !separates c) = [] :=
    List.length_eq_zero_iff.mp (by omega)
  have htrail : (command.reverse.takeWhile isWhitespace).reverse.filter
      (fun c => !separates c) = [] :=
    List.length_eq_zero_iff.mp (by omega)
  rw [hlead, htrail, List.nil_append, List.append_nil] at hsplit
  refine ⟨fun c hc => ?_, fun c hc => ?_, hsplit.symm⟩
  · simpa using List.filter_eq_nil_iff.mp hlead c hc
  · simpa using List.filter_eq_nil_iff.mp htrail c (List.mem_reverse.mpr hc)

theorem Accepted.runsAlike (h : Accepted command args)
    (hcommands : simpleCommands command = some [args]) : RunsAlike command := by
  unfold simpleCommands at hcommands
  split_ifs at hcommands
  have hargs : words separates (uncomment .start command) = args := by
    rw [← flatten_commands, Option.some.inj hcommands, List.flatten_singleton]
  have hnone := h.comment hargs
  rw [uncomment_eq_self_iff.1.mpr hnone] at hargs
  obtain ⟨hlead, htrail, hfilter⟩ := h.filter_eq hargs
  refine ⟨hlead, htrail, fun hff => ?_, fun w hw hhead => ?_⟩
  · have hmem : '\x0c' ∈ (trim command).filter fun c => !separates c :=
      List.mem_filter.mpr ⟨hff, by decide⟩
    rw [hfilter] at hmem
    exact absurd (List.mem_filter.mp hmem).2 (by decide)
  · rw [(exists_words_iff (by decide)).mp ⟨w, hw, hhead⟩] at hnone
    cases hnone

/-- Of an accepted command whose first word is not one of the shell's own : its arguments are
what the shell would pass to the program iff the white space is the shell's and no word begins
a comment. -/
theorem direct_args_iff {own : List Char → Bool} (h : directCommandArgs command = some args)
    (hown : own (args.headD []) = false) :
    programs own command = some [args] ↔ RunsAlike command := by
  have haccepted := accepted_of_directCommandArgs h
  constructor
  · intro hprograms
    exact haccepted.runsAlike (Option.filter_eq_some_iff.mp hprograms).1
  · intro halike
    rw [programs, haccepted.simpleCommands_eq halike]
    rw [Option.filter_some, if_pos]
    simpa using hown

/-- Blanks before, between and after the words. -/
theorem direct_args_iff_blanks : programs (fun w => w == "cd".toList) " foot  -e\tvim\n".toList =
    some [["foot".toList, "-e".toList, "vim".toList]] := by
  have hcomment : (words separates " foot  -e\tvim\n".toList).all (fun w => w.head? ≠ some '#') =
    true := by decide
  refine (direct_args_iff (by decide) (by decide)).mpr ⟨List.all_eq_true.mp (by decide),
    List.all_eq_true.mp (by decide), by decide, fun w hw => ?_⟩
  simpa using List.all_eq_true.mp hcomment w hw

/-- The shell takes `#bar` for a comment. -/
theorem direct_args_comment : ¬∀ (own : List Char → Bool) (command : List Char)
    (args : List (List Char)), directCommandArgs command = some args →
      own (args.headD []) = false → programs own command = some [args] := by
  intro hall
  have hrun := hall (fun _ => false) "foo #bar".toList ["foo".toList, "#bar".toList] (by decide) rfl
  revert hrun
  decide

end Streamwm
