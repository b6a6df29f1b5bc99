import Correlator.Json.Printer
import Mathlib.Data.List.TakeWhile

/-!
# Tokens as they are spelled

A text is cut into tokens from its beginning, each as long as it can be, so where a token ends may
depend on what comes behind it: `1` and `2` side by side are one token.  Only numbers do that, and
they look no further than one character (`EndsLike`).  So a token is read off its own spelling
wherever that stands (`next?_local`), and what is written is read back as long as no number runs
into what follows (`next?_write`).  Blanks end every token, so adding some between two tokens
changes nothing (`Spaced.lex_eq`).

## Main results

* `next?_local` : a token is read off its spelling, whatever comes behind.
* `next?_write` : every token has a spelling.
* `Spaced.lex_eq` : blanks between tokens do not count.
-/

namespace Correlator.Token

/-- What comes next is no part of a number: no digit, no point and no mark of a power. Signs are
not among these, as no number goes on with one. -/
def EndsNumber (rest : List Char) : Prop :=
  ∀ c ∈ rest.head?, c.isDigit = false ∧ c ≠ '.' ∧ c ≠ 'e' ∧ c ≠ 'E'

/-- A token that ends before the one also ends before the other, as the next character is the same
or none of a number. No token looks further ahead than that. -/
def EndsLike (rest rest' : List Char) : Prop := rest'.head? = rest.head? ∨ EndsNumber rest'

/-- What is read is told by its own characters: they are a part of the text at its beginning, and
they are read alike in front of any rest that ends them alike. -/
def IsLocal {α : Type} (read : List Char → Option (α × List Char)) : Prop :=
  ∀ {cs rest : List Char} {a : α}, read cs = some (a, rest) →
    ∃ l, cs = l ++ rest ∧ ∀ rest', EndsLike rest rest' → read (l ++ rest') = some (a, rest')

variable {cs ds rest rest' l : List Char} {c : Char} {t : Token}

theorem EndsLike.refl (rest : List Char) : EndsLike rest rest := .inl rfl

/-- With something in between, nothing is seen of what comes behind it. -/
theorem EndsLike.append (h : EndsLike rest rest') (l : List Char) :
    EndsLike (l ++ rest) (l ++ rest') := by
  cases l with
  | nil => exact h
  | cons c l => exact .inl rfl

theorem EndsNumber.nil : EndsNumber [] := nofun

theorem endsNumber_cons :
    EndsNumber (c :: rest) ↔ c.isDigit = false ∧ c ≠ '.' ∧ c ≠ 'e' ∧ c ≠ 'E' := by
  simp [EndsNumber]

/-! ## Numbers -/

/-- A character that does not come next in the one text, and in a number, not in the other. -/
theorem EndsLike.head_ne (h : EndsLike rest rest') (hc : c = '.' ∨ c = 'e' ∨ c = 'E')
    (hne : ∀ tail, rest ≠ c :: tail) (tail : List Char) : rest' ≠ c :: tail := by
  rintro rfl
  obtain h | h := h
  · cases rest with
    | nil => cases h
    | cons d ds => exact hne ds (by cases h; rfl)
  · obtain ⟨-, hpoint, he, hE⟩ := endsNumber_cons.mp h
    obtain rfl | rfl | rfl := hc
    · exact hpoint rfl
    · exact he rfl
    · exact hE rfl

theorem EndsLike.noDigit (h : EndsLike rest rest') (hno : ∀ c ∈ rest.head?, c.isDigit = false) :
    ∀ c ∈ rest'.head?, c.isDigit = false := by
  obtain h | h := h
  · exact h ▸ hno
  · exact fun c hc => (h c hc).1

theorem readDigits_append {digits : List Char} (hne : digits ≠ [])
    (hdigits : ∀ c ∈ digits, c.isDigit = true) (hrest : ∀ c ∈ rest.head?, c.isDigit = false) :
    readDigits (digits ++ rest) = some (digits, rest) := by
  have htake : (digits ++ rest).takeWhile Char.isDigit = digits := by
    rw [List.takeWhile_append_of_pos hdigits]
    cases rest with
    | nil => simp
    | cons c rest => simp [hrest c rfl]
  have hdrop : (digits ++ rest).dropWhile Char.isDigit = rest := by
    rw [List.dropWhile_append_of_pos hdigits]
    cases rest with
    | nil => rfl
    | cons c rest => simp [hrest c rfl]
  rw [readDigits, htake, hdrop, if_neg hne]

/-- Digits are read up to the first character that is none. -/
theorem readDigits_eq_some {digits : List Char} (h : readDigits cs = some (digits, rest)) :
    cs = digits ++ rest ∧ digits ≠ [] ∧ (∀ c ∈ digits, c.isDigit = true) ∧
      ∀ c ∈ rest.head?, c.isDigit = false := by
  rw [readDigits] at h
  split at h
  case isTrue => cases h
  case isFalse hne =>
    cases h
    refine ⟨List.takeWhile_append_dropWhile.symm, hne, fun c => List.mem_takeWhile_imp,
      fun c hc => ?_⟩
    have hnot := List.head?_dropWhile_not Char.isDigit cs
    rw [Option.mem_def.mp hc] at hnot
    exact hnot

theorem readDigits_local : IsLocal readDigits := by
  intro cs rest digits h
  obtain ⟨rfl, hne, hdigits, hrest⟩ := readDigits_eq_some h
  exact ⟨digits, rfl, fun rest' hlike => readDigits_append hne hdigits (hlike.noDigit hrest)⟩

theorem readFraction_of_ne (h : ∀ tail, cs ≠ '.' :: tail) : readFraction cs = some ([], cs) := by
  unfold readFraction
  split
  · exact absurd rfl (h _)
  · rfl

theorem readFraction_local : IsLocal readFraction := by
  intro cs rest fraction h
  unfold readFraction at h
  split at h
  · obtain ⟨l, rfl, hread⟩ := readDigits_local h
    exact ⟨'.' :: l, rfl, hread⟩
  case h_2 hne =>
    cases h
    exact ⟨[], rfl, fun rest' hlike => readFraction_of_ne (hlike.head_ne (.inl rfl) hne)⟩

theorem readSign_of_digits {digits : List Char} (hne : digits ≠ [])
    (hdigits : ∀ c ∈ digits, c.isDigit = true) :
    readSign (digits ++ rest) = (false, digits ++ rest) := by
  obtain ⟨d, digits, rfl⟩ := List.exists_cons_of_ne_nil hne
  have hd := hdigits d List.mem_cons_self
  unfold readSign
  split
  case h_3 => rfl
  all_goals
    rename_i heq
    obtain ⟨rfl, -⟩ := List.cons.inj heq
    cases hd

/-- A sign and digits behind it. -/
theorem readDigits_readSign {digits : List Char}
    (h : readDigits (readSign cs).2 = some (digits, rest)) :
    ∃ l, cs = l ++ rest ∧ ∀ rest', EndsLike rest rest' →
      readDigits (readSign (l ++ rest')).2 = some (digits, rest') ∧
        (readSign (l ++ rest')).1 = (readSign cs).1 := by
  unfold readSign at h
  split at h
  · obtain ⟨l, rfl, hread⟩ := readDigits_local h
    exact ⟨'-' :: l, rfl, fun rest' hlike => ⟨hread rest' hlike, rfl⟩⟩
  · obtain ⟨l, rfl, hread⟩ := readDigits_local h
    exact ⟨'+' :: l, rfl, fun rest' hlike => ⟨hread rest' hlike, rfl⟩⟩
  · obtain ⟨rfl, hne, hdigits, hrest⟩ := readDigits_eq_some h
    refine ⟨digits, rfl, fun rest' hlike => ?_⟩
    rw [readSign_of_digits hne hdigits, readSign_of_digits hne hdigits]
    exact ⟨readDigits_append hne hdigits (hlike.noDigit hrest), rfl⟩

theorem readPower_of_ne (he : ∀ tail, cs ≠ 'e' :: tail) (hE : ∀ tail, cs ≠ 'E' :: tail) :
    readPower cs = some (none, cs) := by
  unfold readPower
  split
  · exact absurd rfl (he _)
  · exact absurd rfl (hE _)
  · rfl

theorem readPower_local : IsLocal readPower := by
  intro cs rest power h
  unfold readPower at h
  split at h
  case h_3 he hE =>
    cases h
    exact ⟨[], rfl, fun rest' hlike => readPower_of_ne
      (hlike.head_ne (.inr (.inl rfl)) he) (hlike.head_ne (.inr (.inr rfl)) hE)⟩
  all_goals
    obtain ⟨⟨digits, after⟩, hdigits, heq⟩ := Option.map_eq_some_iff.mp h
    cases heq
    obtain ⟨l, rfl, hread⟩ := readDigits_readSign hdigits
    refine ⟨_ :: l, rfl, fun rest' hlike => ?_⟩
    obtain ⟨hdigits', hsign⟩ := hread rest' hlike
    exact Option.map_eq_some_iff.mpr ⟨_, hdigits', by simp [hsign]⟩

/-- The number that a whole part, a fraction and a power of ten make. -/
def numeral (negative : Bool) (whole : List Char) : List Char → Option Int → Numeral
  | [], none => .whole negative (decimalValue whole)
  | fraction, power =>
    .scaled negative (decimalValue (whole ++ fraction)) (power.getD 0 - fraction.length)

theorem readNumber_eq_some_iff {negative : Bool} {n : Numeral} :
    readNumber negative cs = some (n, rest) ↔
      ∃ whole fraction power cs₁ cs₂, readDigits cs = some (whole, cs₁) ∧
        ¬ (whole.head? = some '0' ∧ whole.length ≠ 1) ∧
        readFraction cs₁ = some (fraction, cs₂) ∧ readPower cs₂ = some (power, rest) ∧
        numeral negative whole fraction power = n := by
  constructor
  · intro h
    obtain ⟨⟨whole, cs₁⟩, hwhole, h⟩ := Option.bind_eq_some_iff.mp h
    dsimp only at h
    split at h
    case isTrue => cases h
    case isFalse hzero =>
      obtain ⟨⟨fraction, cs₂⟩, hfraction, h⟩ := Option.bind_eq_some_iff.mp h
      obtain ⟨⟨power, cs₃⟩, hpower, h⟩ := Option.bind_eq_some_iff.mp h
      refine ⟨whole, fraction, power, cs₁, cs₂, hwhole, hzero, hfraction, ?_⟩
      cases fraction <;> cases power <;> (cases h; exact ⟨hpower, rfl⟩)
  · rintro ⟨whole, fraction, power, cs₁, cs₂, hwhole, hzero, hfraction, hpower, rfl⟩
    simp only [readNumber, hwhole, Option.bind_eq_bind, Option.bind_some, if_neg hzero, hfraction,
      hpower]
    cases fraction <;> cases power <;> rfl

theorem readNumber_local (negative : Bool) : IsLocal (readNumber negative) := by
  intro cs rest n h
  obtain ⟨whole, fraction, power, cs₁, cs₂, hwhole, hzero, hfraction, hpower, rfl⟩ :=
    readNumber_eq_some_iff.mp h
  obtain ⟨l₁, rfl, hread₁⟩ := readDigits_local hwhole
  obtain ⟨l₂, rfl, hread₂⟩ := readFraction_local hfraction
  obtain ⟨l₃, rfl, hread₃⟩ := readPower_local hpower
  refine ⟨l₁ ++ (l₂ ++ l₃), by simp, fun rest' hlike => ?_⟩
  -- Each part is read in front of the next one, so what ends it is the same; the last part is
  -- ended by the rest.
  have hlike₂ := hlike.append l₃
  refine readNumber_eq_some_iff.mpr ⟨whole, fraction, power, _, _, ?_, hzero, hread₂ _ hlike₂,
    hread₃ _ hlike, rfl⟩
  rw [List.append_assoc, List.append_assoc]
  exact hread₁ _ (hlike₂.append l₂)

/-! ## Strings -/

theorem readParts_unit {d : Char} {a b : Char} {n : Nat} (h : hexUnit? a b c d = some n) :
    readParts ('\\' :: 'u' :: a :: b :: c :: d :: cs) =
      (readParts cs).map fun (parts, rest) => (.unit n :: parts, rest) := by
  rw [readParts, h]
  cases readParts cs <;> rfl

theorem readParts_escape {e : Char} (h : escaped? e = some c) :
    readParts ('\\' :: e :: cs) =
      (readParts cs).map fun (parts, rest) => (.char c :: parts, rest) := by
  have hu : e ≠ 'u' := by
    rintro rfl
    cases h
  rw [readParts]
  · rw [h]
    cases readParts cs <;> rfl
  · exact fun _ _ _ _ _ he => absurd he hu

theorem readParts_char (hquote : c ≠ '"') (hescape : c ≠ '\\') (hcontrol : ¬ c < ' ') :
    readParts (c :: cs) = (readParts cs).map fun (parts, rest) => (.char c :: parts, rest) := by
  rw [readParts]
  · rw [if_neg (not_or.mpr ⟨hcontrol, hescape⟩)]
    cases readParts cs <;> rfl
  · exact hquote
  · exact fun _ _ _ _ _ he => absurd he hescape
  · exact fun _ _ he => absurd he hescape

/-- A string is read up to its closing quote, and nothing is seen of what comes behind it. The
induction is on how the string is read, part by part. -/
theorem readParts_local {parts : List Part} (h : readParts cs = some (parts, rest)) :
    ∃ l, cs = l ++ rest ∧ ∀ rest', readParts (l ++ rest') = some (parts, rest') := by
  fun_induction readParts cs generalizing parts rest with
  | case1 => cases h
  | case2 rest =>
    cases h
    exact ⟨['"'], rfl, fun _ => rfl⟩
  | case3 a b c d tail n parts rest hparts hunit ih =>
    cases h
    obtain ⟨l, rfl, hread⟩ := ih hparts
    refine ⟨'\\' :: 'u' :: a :: b :: c :: d :: l, rfl, fun rest' => ?_⟩
    exact (readParts_unit hunit).trans (congrArg (Option.map _) (hread rest'))
  | case4 => cases h
  | case5 e tail hshort c parts rest hparts hescaped ih =>
    cases h
    obtain ⟨l, rfl, hread⟩ := ih hparts
    refine ⟨'\\' :: e :: l, rfl, fun rest' => ?_⟩
    exact (readParts_escape hescaped).trans (congrArg (Option.map _) (hread rest'))
  | case6 => cases h
  | case7 => cases h
  | case8 c tail hquote hunit hescape hplain parts rest hparts ih =>
    cases h
    obtain ⟨l, rfl, hread⟩ := ih hparts
    obtain ⟨hcontrol, hsolidus⟩ := not_or.mp hplain
    refine ⟨c :: l, rfl, fun rest' => ?_⟩
    exact (readParts_char hquote hsolidus hcontrol).trans (congrArg (Option.map _) (hread rest'))
  | case9 => cases h

/-! ## The next token -/

/-- A number without a sign begins with a digit, so it is nothing else; every other token begins
with a character of its own. -/
theorem next?_of_readNumber {n : Numeral} (h : readNumber false cs = some (n, rest)) :
    next? cs = some (.number n, rest) := by
  obtain ⟨digits, -, -, cs₁, -, hdigits, -⟩ := readNumber_eq_some_iff.mp h
  obtain ⟨rfl, hne, hall, -⟩ := readDigits_eq_some hdigits
  obtain ⟨d, digits, rfl⟩ := List.exists_cons_of_ne_nil hne
  have hd := hall d List.mem_cons_self
  unfold next?
  split
  case h_12 => rw [h]; rfl
  all_goals
    rename_i heq
    obtain ⟨rfl, -⟩ := List.cons.inj heq
    cases hd

/-- A token is read off its spelling, whatever comes behind it; only a number can run into that. -/
theorem next?_local (h : next? cs = some (t, rest)) :
    ∃ l, cs = l ++ rest ∧ ∀ rest', (EndsLike rest rest' ∨ ∀ n, t ≠ .number n) →
      next? (l ++ rest') = some (t, rest') := by
  unfold next? at h
  split at h
  case h_1 => cases h; exact ⟨['\x7b'], rfl, fun _ _ => rfl⟩
  case h_2 => cases h; exact ⟨['\x7d'], rfl, fun _ _ => rfl⟩
  case h_3 => cases h; exact ⟨['['], rfl, fun _ _ => rfl⟩
  case h_4 => cases h; exact ⟨[']'], rfl, fun _ _ => rfl⟩
  case h_5 => cases h; exact ⟨[','], rfl, fun _ _ => rfl⟩
  case h_6 => cases h; exact ⟨[':'], rfl, fun _ _ => rfl⟩
  case h_8 => cases h; exact ⟨['n', 'u', 'l', 'l'], rfl, fun _ _ => rfl⟩
  case h_9 => cases h; exact ⟨['t', 'r', 'u', 'e'], rfl, fun _ _ => rfl⟩
  case h_10 => cases h; exact ⟨['f', 'a', 'l', 's', 'e'], rfl, fun _ _ => rfl⟩
  all_goals
    obtain ⟨⟨_, after⟩, hsome, heq⟩ := Option.map_eq_some_iff.mp h
    cases heq
  case h_7 =>
    obtain ⟨l, rfl, hread⟩ := readParts_local hsome
    exact ⟨'"' :: l, rfl, fun rest' _ => congrArg (Option.map _) (hread rest')⟩
  case h_11 =>
    obtain ⟨l, rfl, hread⟩ := readNumber_local true hsome
    exact ⟨'-' :: l, rfl, fun rest' hends =>
      congrArg (Option.map _) (hread rest' (hends.resolve_right fun hno => hno _ rfl))⟩
  case h_12 =>
    obtain ⟨l, rfl, hread⟩ := readNumber_local false hsome
    exact ⟨l, rfl, fun rest' hends =>
      next?_of_readNumber (hread rest' (hends.resolve_right fun hno => hno _ rfl))⟩

/-- Blanks are skipped. -/
theorem lex_blank (h : isBlank c = true) : lex (c :: cs) = lex cs := by
  rw [lex, lex, List.dropWhile_cons_of_pos h]

theorem readNumber_of_not_digit {negative : Bool} (h : c.isDigit = false) :
    readNumber negative (c :: cs) = none := by
  have hdigits : readDigits (c :: cs) = none := if_pos (List.takeWhile_cons_of_neg (by simp [h]))
  rw [readNumber, hdigits]
  rfl

theorem isBlank_iff : isBlank c = true ↔ ((c = ' ' ∨ c = '\t') ∨ c = '\n') ∨ c = '\r' := by
  simp [isBlank]

theorem next?_of_isBlank (h : isBlank c = true) : next? (c :: cs) = none := by
  obtain ((rfl | rfl) | rfl) | rfl := isBlank_iff.mp h
  all_goals simp [next?, readNumber_of_not_digit]

/-- A token comes off the front. -/
theorem lex_next (h : next? cs = some (t, rest)) : lex cs = (lex rest).map (t :: ·) := by
  have hstart : cs.dropWhile isBlank = cs := by
    cases cs with
    | nil => rfl
    | cons c cs =>
      refine List.dropWhile_cons_of_neg fun hblank => ?_
      rw [next?_of_isBlank hblank] at h
      cases h
  rw [lex]
  split
  case h_1 hnil =>
    rw [← hstart, hnil] at h
    cases h
  case h_2 c cs' hcons =>
    rw [← hcons, hstart]
    split <;> simp_all

theorem lex_nil : lex [] = some [] := by
  rw [lex]
  rfl

theorem lex_blanks (h : ∀ c ∈ l, isBlank c = true) : lex (l ++ cs) = lex cs := by
  induction l with
  | nil => rfl
  | cons c l ih =>
    obtain ⟨hc, hl⟩ := List.forall_mem_cons.mp h
    exact (lex_blank hc).trans (ih hl)

/-- A text without tokens is blank. -/
theorem isBlank_of_lex (h : lex cs = some []) : ∀ c ∈ cs, isBlank c = true := by
  rw [lex] at h
  split at h
  case h_1 hnil => exact List.dropWhile_eq_nil_iff.mp hnil
  case h_2 =>
    split at h
    · cases h
    · obtain ⟨_, -, heq⟩ := Option.map_eq_some_iff.mp h
      cases heq

/-- A text is cut where a token ends that is no number, whatever is written behind it. The
induction is on how the text is cut. -/
theorem lex_append {ts : List Token} (h : lex cs = some ts)
    (hlast : ∀ n, ts.getLast? ≠ some (.number n)) (rest : List Char) :
    lex (cs ++ rest) = (lex rest).map (ts ++ ·) := by
  fun_induction lex cs generalizing ts with
  | case1 cs hnil =>
    cases h
    rw [lex_blanks (List.dropWhile_eq_nil_iff.mp hnil)]
    simp
  | case2 => cases h
  | case3 cs c cs' hcons t after hnext ih =>
    obtain ⟨ts, hts, rfl⟩ := Option.map_eq_some_iff.mp h
    obtain ⟨l, hl, hread⟩ := next?_local hnext
    rw [← List.takeWhile_append_dropWhile (p := isBlank) (l := cs), hcons, hl, List.append_assoc,
      List.append_assoc, lex_blanks fun _ => List.mem_takeWhile_imp]
    -- What follows the token is the same as before, or it was the last one, and then it is no
    -- number.
    have hends : EndsLike after (after ++ rest) ∨ ∀ n, t ≠ .number n := by
      cases after with
      | cons d after => exact .inl (.inl rfl)
      | nil =>
        refine .inr fun n hn => ?_
        rw [lex_nil] at hts
        cases hts
        exact hlast n (congrArg some hn)
    rw [lex_next (hread _ hends), ih hts, Option.map_map]
    · rfl
    · intro n hn
      cases ts with
      | nil => cases hn
      | cons u ts => exact hlast n (by rwa [List.getLast?_cons_cons])

/-! ## Blanks between tokens -/

/-- The second text is the first one with blanks added in front of tokens and at the end. -/
inductive Spaced : List Char → List Char → Prop
  | same (cs : List Char) : Spaced cs cs
  /-- A blank is added. -/
  | add {c : Char} {cs ds : List Char} : isBlank c = true → Spaced cs ds → Spaced cs (c :: ds)
  /-- A blank that is there stays. -/
  | blank {c : Char} {cs ds : List Char} : isBlank c = true → Spaced cs ds →
    Spaced (c :: cs) (c :: ds)
  /-- A token stays as it is spelled. -/
  | token {l cs ds : List Char} {t : Token} : next? (l ++ cs) = some (t, cs) → Spaced cs ds →
    Spaced (l ++ cs) (l ++ ds)

theorem endsNumber_of_isBlank (h : isBlank c = true) : EndsNumber (c :: cs) := by
  obtain ((rfl | rfl) | rfl) | rfl := isBlank_iff.mp h
  all_goals exact endsNumber_cons.mpr (by decide)

theorem Spaced.endsLike (h : Spaced cs ds) : EndsLike cs ds := by
  cases h with
  | same => exact .refl _
  | add hc _ => exact .inr (endsNumber_of_isBlank hc)
  | blank _ _ => exact .inl rfl
  | @token l cs ds t hnext _ =>
    cases l with
    | nil => exact absurd (next?_length hnext) (Nat.lt_irrefl _)
    | cons c l => exact .inl rfl

theorem Spaced.lex_eq (h : Spaced cs ds) : lex ds = lex cs := by
  induction h with
  | same => rfl
  | add hc _ ih => rw [lex_blank hc, ih]
  | blank hc _ ih => rw [lex_blank hc, lex_blank hc, ih]
  | @token l cs ds t hnext hspaced ih =>
    obtain ⟨l', heq, hread⟩ := next?_local hnext
    obtain rfl := List.append_cancel_right heq
    rw [lex_next hnext, lex_next (hread ds (.inl hspaced.endsLike)), ih]

/-! ## What is written is read back -/

theorem decimalValue_toDigits (n : Nat) : decimalValue (Nat.toDigits 10 n) = n :=
  Nat.ofDigitChars_ten_toDigits

/-- A number other than zero does not begin with a zero. -/
theorem head?_toDigits {n : Nat} (h : n ≠ 0) : (Nat.toDigits 10 n).head? ≠ some '0' := by
  have hdigit : ∀ d < 10, d ≠ 0 → [Nat.digitChar d].head? ≠ some '0' := by decide
  induction n using Nat.strongRecOn with
  | _ n ih =>
    by_cases hlt : n < 10
    · rw [Nat.toDigits_of_lt_base hlt]
      exact hdigit n hlt h
    · have hle : 10 ≤ n := Nat.le_of_not_lt hlt
      have hhead := ih (n / 10) (by omega) (by omega)
      rw [Nat.toDigits_of_base_le (by decide) hle, List.head?_append]
      cases hdigits : Nat.toDigits 10 (n / 10) with
      | nil => exact absurd hdigits Nat.toDigits_ne_nil
      | cons d digits => rwa [hdigits] at hhead

/-- The whole part of a number is written without needless zeros. -/
theorem toDigits_leading (n : Nat) :
    ¬ ((Nat.toDigits 10 n).head? = some '0' ∧ (Nat.toDigits 10 n).length ≠ 1) := by
  rintro ⟨hhead, hlength⟩
  by_cases hzero : n = 0
  · subst hzero
    exact hlength rfl
  · exact head?_toDigits hzero hhead

theorem isDigit_of_mem_toDigits (n : Nat) : ∀ c ∈ Nat.toDigits 10 n, c.isDigit = true :=
  fun _ => Nat.isDigit_of_mem_toDigits (by decide) (Nat.le_refl 10)

theorem readDigits_toDigits (n : Nat) (h : ∀ c ∈ rest.head?, c.isDigit = false) :
    readDigits (Nat.toDigits 10 n ++ rest) = some (Nat.toDigits 10 n, rest) :=
  readDigits_append Nat.toDigits_ne_nil (isDigit_of_mem_toDigits n) h

theorem readPower_writeInt (n : Int) (h : EndsNumber rest) :
    readPower ('e' :: (writeInt n ++ rest)) = some (some n, rest) := by
  have hdigits := readDigits_toDigits n.natAbs fun c hc => (h c hc).1
  rw [writeInt, readPower]
  split
  case isTrue hneg =>
    show (readDigits (Nat.toDigits 10 n.natAbs ++ rest)).map _ = _
    rw [hdigits, Option.map_some]
    simp only [readSign, decimalValue_toDigits, List.cons_append, if_true]
    rw [Int.ofNat_natAbs_of_nonpos (Int.le_of_lt hneg), Int.neg_neg]
  case isFalse hpos =>
    rw [readSign_of_digits Nat.toDigits_ne_nil (isDigit_of_mem_toDigits _), hdigits,
      Option.map_some]
    simp only [decimalValue_toDigits, Bool.false_eq_true, if_false]
    rw [Int.natAbs_of_nonneg (Int.not_lt.mp hpos)]

theorem readNumber_whole (negative : Bool) (n : Nat) (h : EndsNumber rest) :
    readNumber negative (Nat.toDigits 10 n ++ rest) = some (.whole negative n, rest) := by
  refine readNumber_eq_some_iff.mpr ⟨Nat.toDigits 10 n, [], none, rest, rest,
    readDigits_toDigits n fun c hc => (h c hc).1, toDigits_leading n, ?_, ?_, ?_⟩
  · exact readFraction_of_ne fun tail heq => (endsNumber_cons.mp (heq ▸ h)).2.1 rfl
  · exact readPower_of_ne (fun tail heq => (endsNumber_cons.mp (heq ▸ h)).2.2.1 rfl)
      (fun tail heq => (endsNumber_cons.mp (heq ▸ h)).2.2.2 rfl)
  · exact congrArg (Numeral.whole negative) (decimalValue_toDigits n)

theorem readNumber_scaled (negative : Bool) (n : Nat) (power : Int) (h : EndsNumber rest) :
    readNumber negative (Nat.toDigits 10 n ++ 'e' :: writeInt power ++ rest) =
      some (.scaled negative n power, rest) := by
  rw [List.append_assoc]
  refine readNumber_eq_some_iff.mpr ⟨Nat.toDigits 10 n, [], some power, _, _,
    readDigits_toDigits n ?_, toDigits_leading n, rfl, readPower_writeInt power h, ?_⟩
  · simp
  · simp [numeral, decimalValue_toDigits]

theorem hexUnit?_unitDigits {n : Nat} (h : n < 32) :
    hexUnit? '0' '0' (Nat.digitChar (n / 16)) (Nat.digitChar (n % 16)) = some n := by
  have hall : ∀ n < 32,
      hexUnit? '0' '0' (Nat.digitChar (n / 16)) (Nat.digitChar (n % 16)) = some n := by decide
  exact hall n h

/-- The part names the character, by itself or by its number. -/
def Part.Names (p : Part) (c : Char) : Prop := p = .char c ∨ p = .unit c.toNat ∧ c < ' '

theorem Part.Names.assemble {p : Part} (h : p.Names c) (parts : List Part) :
    assemble (p :: parts) = (Token.assemble parts).map (c :: ·) := by
  obtain rfl | ⟨rfl, hcontrol⟩ := h
  · rfl
  · have hlt : c.toNat < 32 := hcontrol
    have hhigh : isHighSurrogate c.toNat = false := by
      simp only [isHighSurrogate, Bool.and_eq_false_imp, decide_eq_true_eq]
      omega
    have hlow : isLowSurrogate c.toNat = false := by
      simp only [isLowSurrogate, Bool.and_eq_false_imp, decide_eq_true_eq]
      omega
    cases parts with
    | nil => simp [Token.assemble, hhigh, hlow]
    | cons q parts => cases q <;> simp [Token.assemble, hhigh, hlow]

/-- A written character is read as one part. -/
theorem readParts_writeChar (c : Char) :
    ∃ p : Part, p.Names c ∧ ∀ cs, readParts (writeChar c ++ cs) =
      (readParts cs).map fun (parts, rest) => (p :: parts, rest) := by
  -- A character that has a short escape is read as itself.
  have letter (e : Char) (he : escaped? e = some c) :
      ∃ p : Part, p.Names c ∧ ∀ cs, readParts (['\\', e] ++ cs) =
        (readParts cs).map fun (parts, rest) => (p :: parts, rest) :=
    ⟨.char c, .inl rfl, fun _ => readParts_escape he⟩
  unfold writeChar
  split; case isTrue h => exact letter '"' (by subst h; rfl)
  split; case isTrue h => exact letter '\\' (by subst h; rfl)
  split; case isTrue h => exact letter 'n' (by subst h; rfl)
  split; case isTrue h => exact letter 'r' (by subst h; rfl)
  split; case isTrue h => exact letter 't' (by subst h; rfl)
  split; case isTrue h => exact letter 'b' (by subst h; rfl)
  split; case isTrue h => exact letter 'f' (by subst h; rfl)
  split
  case isTrue hcontrol =>
    exact ⟨.unit c.toNat, .inr ⟨rfl, hcontrol⟩,
      fun _ => readParts_unit (hexUnit?_unitDigits hcontrol)⟩
  case isFalse hquote hsolidus _ _ _ _ _ hcontrol =>
    exact ⟨.char c, .inl rfl, fun _ => readParts_char hquote hsolidus hcontrol⟩

theorem readParts_write (s : List Char) :
    ∃ parts, assemble parts = some s ∧
      ∀ rest, readParts (s.flatMap writeChar ++ '"' :: rest) = some (parts, rest) := by
  induction s with
  | nil => exact ⟨[], rfl, fun _ => rfl⟩
  | cons c s ih =>
    obtain ⟨parts, hparts, hread⟩ := ih
    obtain ⟨p, hnames, hfirst⟩ := readParts_writeChar c
    refine ⟨p :: parts, by rw [hnames.assemble, hparts]; rfl, fun rest => ?_⟩
    rw [List.flatMap_cons, List.append_assoc, hfirst, hread]
    rfl

/-- Every token is read back from its spelling; only a number can run into what follows. A spelling
is chosen by the writer, and this says that the choice is one of those that the reader knows. -/
theorem next?_write (t : Token) (h : EndsNumber rest ∨ ∀ n, t ≠ .number n) :
    next? (t.write ++ rest) = some (t, rest) := by
  cases t with
  | bool b => cases b <;> rfl
  | number n =>
    replace h := h.resolve_right fun hno => hno _ rfl
    cases n with
    | whole negative magnitude =>
      have hread := readNumber_whole negative magnitude h
      cases negative with
      | false => exact next?_of_readNumber hread
      | true => exact congrArg (Option.map _) hread
    | scaled negative significand exponent =>
      have hread := readNumber_scaled negative significand exponent h
      cases negative with
      | false => exact next?_of_readNumber hread
      | true => exact congrArg (Option.map _) hread
  | string s =>
    cases s with
    | none => rfl
    | some s =>
      obtain ⟨parts, hparts, hread⟩ := readParts_write s.toList
      show (readParts (s.toList.flatMap writeChar ++ ['"'] ++ rest)).map _ = _
      rw [List.append_assoc, List.singleton_append, hread]
      simp [hparts]
  | _ => rfl

/-- Every number is ended by any token but a number. -/
theorem endsNumber_write (h : ∀ n, t ≠ .number n) (rest : List Char) :
    EndsNumber (t.write ++ rest) := by
  cases t with
  | number n => exact absurd rfl (h n)
  | bool b => cases b <;> exact endsNumber_cons.mpr (by decide)
  | string s => cases s <;> exact endsNumber_cons.mpr (by decide)
  | _ => exact endsNumber_cons.mpr (by decide)

/-! ## Texts of tokens -/

/-- In front of `rest` the tokens are cut apart as they were written. -/
def IsCut (ts : List Token) (rest : List Char) : Prop :=
  lex (ts.flatMap write ++ rest) = (lex rest).map (ts ++ ·)

theorem IsCut.single (h : EndsNumber rest ∨ ∀ n, t ≠ .number n) : IsCut [t] rest := by
  rw [IsCut, List.flatMap_singleton, lex_next (next?_write t h)]
  rfl

theorem IsCut.append {ts us : List Token} (hts : IsCut ts (us.flatMap write ++ rest))
    (hus : IsCut us rest) : IsCut (ts ++ us) rest := by
  rw [IsCut] at hts hus ⊢
  rw [List.flatMap_append, List.append_assoc, hts, hus, Option.map_map]
  refine congrArg (Option.map · _) (funext fun vs => ?_)
  exact (List.append_assoc ts us vs).symm

/-- A token that is no number stands in front of anything. -/
theorem IsCut.cons {ts : List Token} (ht : ∀ n, t ≠ .number n) (hts : IsCut ts rest) :
    IsCut (t :: ts) rest := .append (.single (.inr ht)) hts

end Correlator.Token
