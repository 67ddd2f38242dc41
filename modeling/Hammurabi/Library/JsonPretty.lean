/-
This file gives JSON documents their pretty text: each item and each member on a line of
its own, indented by two blanks for each level, and a blank after the colon of a member.

Pretty text is compact text with white space outside the strings. Without that white space
it is the compact text again, and so it is read back as the document it was printed from.
-/

import Hammurabi.Library.JsonReader

namespace Json

/-! ### Printing -/

/-- A new line, indented by two blanks for each level. -/
def newLine (level : Nat) : List Char := '\n' :: List.replicate (2 * level) ' '

/-- Texts between two brackets, each on a line of its own; the brackets alone if there are none. -/
def enclosed (opening closing : Char) (level : Nat) (texts : List (List Char)) : List Char :=
  if texts.isEmpty then [opening, closing]
  else opening :: commaSeparated (texts.map (newLine (level + 1) ++ ·)) ++
    (newLine level ++ [closing])

namespace Value

mutual

/-- The pretty text of a document that stands at a level. -/
def prettyAt : Nat → Value → List Char
  | level, .array items => enclosed '[' ']' level (prettyItems (level + 1) items)
  | level, .object members => enclosed '{' '}' level (prettyMembers (level + 1) members)
  | _, value => value.text

def prettyItems : Nat → List Value → List (List Char)
  | _, [] => []
  | level, item :: rest => item.prettyAt level :: prettyItems level rest

def prettyMembers : Nat → List (String × Value) → List (List Char)
  | _, [] => []
  | level, (key, value) :: rest =>
    (stringText key ++ ':' :: ' ' :: value.prettyAt level) :: prettyMembers level rest

end

/-- The pretty text of a document. -/
def pretty (value : Value) : List Char := value.prettyAt 0

/-- The pretty text of one member of an object. -/
def prettyMember (level : Nat) (member : String × Value) : List Char :=
  stringText member.1 ++ ':' :: ' ' :: member.2.prettyAt level

theorem prettyItems_eq (level : Nat) (items : List Value) :
    prettyItems level items = items.map (prettyAt level) := by
  induction items with
  | nil => rfl
  | cons item rest inductionHypothesis => rw [prettyItems, inductionHypothesis, List.map_cons]

theorem prettyMembers_eq (level : Nat) (members : List (String × Value)) :
    prettyMembers level members = members.map (prettyMember level) := by
  induction members with
  | nil => rfl
  | cons member rest inductionHypothesis =>
    rw [prettyMembers, inductionHypothesis, List.map_cons, prettyMember]

theorem prettyAt_array (level : Nat) (items : List Value) :
    (Value.array items).prettyAt level =
      enclosed '[' ']' level (items.map (prettyAt (level + 1))) := by
  rw [prettyAt, prettyItems_eq]

theorem prettyAt_object (level : Nat) (members : List (String × Value)) :
    (Value.object members).prettyAt level =
      enclosed '{' '}' level (members.map (prettyMember (level + 1))) := by
  rw [prettyAt, prettyMembers_eq]

end Value

/-! ### Without the white space -/

/-- Where a character of a text stands. -/
inductive Place where
  | outside
  | inside
  | escaped
  deriving DecidableEq, Repr

/-- White space between the tokens of a text. -/
def isBlank (c : Char) : Bool := c = ' ' || c = '\n' || c = '\t' || c = '\x0d'

/-- A text without the white space outside its strings. -/
def compact : Place → List Char → List Char
  | _, [] => []
  | .outside, c :: rest =>
    if isBlank c then compact .outside rest
    else c :: compact (if c = '"' then .inside else .outside) rest
  | .inside, c :: rest =>
    c :: compact (if c = '"' then .outside else if c = '\\' then .escaped else .inside) rest
  | .escaped, c :: rest => c :: compact .inside rest

theorem compact_blanks (blanks rest : List Char) (blank : ∀ c ∈ blanks, isBlank c = true) :
    compact .outside (blanks ++ rest) = compact .outside rest := by
  induction blanks with
  | nil => rfl
  | cons c blanks inductionHypothesis =>
    rw [List.forall_mem_cons] at blank
    rw [List.cons_append, compact, if_pos blank.1, inductionHypothesis blank.2]

theorem compact_newLine (level : Nat) (rest : List Char) :
    compact .outside (newLine level ++ rest) = compact .outside rest := by
  refine compact_blanks _ rest (List.forall_mem_cons.mpr ⟨rfl, fun c inside => ?_⟩)
  rw [(List.mem_replicate.mp inside).2]
  rfl

/-- Outside strings, what is neither a blank nor a quote stays. -/
theorem compact_plain (text rest : List Char)
    (plain : ∀ c ∈ text, isBlank c = false ∧ c ≠ '"') :
    compact .outside (text ++ rest) = text ++ compact .outside rest := by
  induction text with
  | nil => rfl
  | cons c text inductionHypothesis =>
    obtain ⟨⟨full, unquoted⟩, plain⟩ := List.forall_mem_cons.mp plain
    rw [List.cons_append, compact, if_neg (Bool.eq_false_iff.mp full), if_neg unquoted,
      inductionHypothesis plain, List.cons_append]

/-- Inside a string, what is neither a quote nor a backslash stays there. -/
theorem compact_inside (c : Char) (rest : List Char) (unquoted : c ≠ '"') (unescaped : c ≠ '\\') :
    compact .inside (c :: rest) = c :: compact .inside rest := by
  rw [compact, if_neg unquoted, if_neg unescaped]

/-- A hexadecimal digit stays inside a string. -/
theorem compact_digit (value : Nat) (rest : List Char) :
    compact .inside (Hex.digit value :: rest) = Hex.digit value :: compact .inside rest := by
  have valued := Hex.value_digit value
  refine compact_inside _ rest (fun quote => ?_) (fun backslash => ?_)
  · rw [quote] at valued
    cases valued
  · rw [backslash] at valued
    cases valued

/-- The text of a character of a string stays, and the string goes on. -/
theorem compact_escapeChar (c : Char) (rest : List Char) :
    compact .inside (escapeChar c ++ rest) = escapeChar c ++ compact .inside rest := by
  unfold escapeChar
  split_ifs with quote backslash
  iterate 7 rfl
  · change '\\' :: 'u' :: compact .inside (hex4 c.toNat ++ rest) =
      '\\' :: 'u' :: (hex4 c.toNat ++ compact .inside rest)
    simp only [hex4, List.cons_append, List.nil_append, compact_digit]
  · exact compact_inside c rest quote backslash

/-- The text of a string stays. -/
theorem compact_stringText (value : String) (rest : List Char) :
    compact .outside (stringText value ++ rest) = stringText value ++ compact .outside rest := by
  have each : ∀ letters : List Char,
      compact .inside (letters.flatMap escapeChar ++ ('"' :: rest)) =
        letters.flatMap escapeChar ++ ('"' :: compact .outside rest) := by
    intro letters
    induction letters with
    | nil => rfl
    | cons c letters inductionHypothesis =>
      rw [List.flatMap_cons, List.append_assoc, compact_escapeChar, inductionHypothesis,
        List.append_assoc]
  simp only [stringText, List.cons_append, List.append_assoc, List.nil_append]
  exact congrArg (List.cons '"') (each value.toList)

/-- So do the digits of a number. -/
theorem compact_number (number : Number) (integer : (Value.number number).IntegerOnly)
    (rest : List Char) :
    compact .outside (numberText number ++ rest) = numberText number ++ compact .outside rest := by
  have digits : ∀ value : Nat, ∀ c ∈ Nat.toDigits 10 value, isBlank c = false ∧ c ≠ '"' := by
    intro value c member
    have digit := isDigit_toDigits value c member
    constructor
    · by_contra blank
      simp only [isBlank, Bool.not_eq_false, Bool.or_eq_true, decide_eq_true_eq] at blank
      rcases blank with ((rfl | rfl) | rfl) | rfl
      all_goals cases digit
    · rintro rfl
      cases digit
  refine compact_plain _ rest ?_
  cases number with
  | posInt value => exact digits _
  | negInt value negative => exact List.forall_mem_cons.mpr ⟨by decide, digits _⟩
  | float text => exact absurd integer (Value.not_integerOnly_float text)

/-- Texts with commas between them, each of them without its white space. -/
theorem compact_commaSeparated {Part : Type} (parts : List Part) (long short : Part → List Char)
    (each : ∀ part ∈ parts, ∀ rest,
      compact .outside (long part ++ rest) = short part ++ compact .outside rest)
    (rest : List Char) :
    compact .outside (commaSeparated (parts.map long) ++ rest) =
      commaSeparated (parts.map short) ++ compact .outside rest := by
  have following : ∀ parts : List Part, (∀ part ∈ parts, ∀ rest,
        compact .outside (long part ++ rest) = short part ++ compact .outside rest) →
      compact .outside ((parts.map long).flatMap (',' :: ·) ++ rest) =
        (parts.map short).flatMap (',' :: ·) ++ compact .outside rest := by
    intro parts each
    induction parts with
    | nil => rfl
    | cons part parts inductionHypothesis =>
      obtain ⟨here, later⟩ := List.forall_mem_cons.mp each
      rw [List.map_cons, List.map_cons, List.flatMap_cons, List.flatMap_cons, List.append_assoc,
        List.append_assoc, List.cons_append, List.cons_append]
      change ',' :: compact .outside (long part ++ _) = _
      rw [here, inductionHypothesis later]
  cases parts with
  | nil => rfl
  | cons part parts =>
    obtain ⟨here, later⟩ := List.forall_mem_cons.mp each
    rw [List.map_cons, List.map_cons, commaSeparated, commaSeparated, List.append_assoc, here,
      following parts later, List.append_assoc]

/-- Brackets around texts on lines of their own are brackets around them. -/
theorem compact_enclosed {Part : Type} (opening closing : Char) (level : Nat) (parts : List Part)
    (long short : Part → List Char)
    (marks : (isBlank opening = false ∧ opening ≠ '"') ∧ isBlank closing = false ∧ closing ≠ '"')
    (each : ∀ part ∈ parts, ∀ rest,
      compact .outside (long part ++ rest) = short part ++ compact .outside rest)
    (rest : List Char) :
    compact .outside (enclosed opening closing level (parts.map long) ++ rest) =
      opening :: commaSeparated (parts.map short) ++ [closing] ++ compact .outside rest := by
  obtain ⟨opens, closes⟩ := marks
  have opened := fun rest => compact_plain [opening] rest (by simpa using opens)
  have closed := fun rest => compact_plain [closing] rest (by simpa using closes)
  cases parts with
  | nil => exact (opened _).trans (congrArg (List.cons opening) (closed rest))
  | cons part parts =>
    let line := fun part => newLine (level + 1) ++ long part
    have lines := compact_commaSeparated (part :: parts) line short
      (fun part inside rest => by rw [List.append_assoc, compact_newLine, each part inside])
      (newLine level ++ ([closing] ++ rest))
    have split : enclosed opening closing level ((part :: parts).map long) ++ rest =
        [opening] ++ (commaSeparated ((part :: parts).map line) ++
          (newLine level ++ ([closing] ++ rest))) := by
      rw [enclosed, if_neg (by simp), List.map_map]
      simp only [List.cons_append, List.append_assoc, List.nil_append]
      rfl
    rw [split, opened, lines, compact_newLine, closed]
    simp only [List.cons_append, List.append_assoc, List.nil_append]

/-- Without its white space, pretty text is compact text. -/
theorem compact_prettyAt (value : Value) (integer : value.IntegerOnly) (level : Nat)
    (rest : List Char) :
    compact .outside (value.prettyAt level ++ rest) = value.text ++ compact .outside rest := by
  induction value using Value.induction generalizing level rest with
  | null => rfl
  | bool value => cases value <;> rfl
  | number number => exact compact_number number integer rest
  | string value => exact compact_stringText value rest
  | array items each =>
    rw [Value.integerOnly_array] at integer
    rw [Value.prettyAt_array, Value.text_array]
    exact compact_enclosed '[' ']' level items _ _ (by decide)
      (fun item inside rest => each item inside (integer item inside) (level + 1) rest) rest
  | object members each =>
    rw [Value.integerOnly_object] at integer
    rw [Value.prettyAt_object, Value.text_object]
    refine compact_enclosed '{' '}' level members _ _ (by decide) (fun member inside rest => ?_)
      rest
    have colon := fun rest =>
      compact_plain [':'] rest (List.forall_mem_singleton.mpr ⟨rfl, by decide⟩)
    rw [Value.prettyMember, List.append_assoc, compact_stringText, Value.memberText,
      List.append_assoc]
    refine congrArg (stringText member.1 ++ ·) ((colon _).trans (congrArg (List.cons ':') ?_))
    exact (compact_blanks [' '] _ (List.forall_mem_singleton.mpr rfl)).trans
      (each member inside (integer member inside) (level + 1) rest)

/-- A document is read back from its pretty text. -/
theorem read_pretty (value : Value) (integer : value.IntegerOnly) :
    read (compact .outside value.pretty) = some value := by
  have same := compact_prettyAt value integer 0 []
  rw [List.append_nil, compact, List.append_nil] at same
  rw [Value.pretty, same, read_text value integer]

end Json
