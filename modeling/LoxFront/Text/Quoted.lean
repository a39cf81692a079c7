import LoxFront.Text.Glyph

/-!
# Quoted text for log messages

A text is quoted so that it stays on one line and shows what it holds. Some characters have an
escape of one letter, quotation marks and the backslash get a backslash, and any other character
that does not stand alone is written by its code point.

* `Text.quote` — for what a source holds, where the mark around the text is escaped;
* `Text.quotePath` — for the name of a file, where the single quotation mark is escaped, too.

All that is shown stands alone (`standsAlone_of_mem_quoteWith`).
-/

namespace LoxFront.Text

/-- The code point in lower-case hexadecimal, between braces and without leading zeros. -/
def codePointEscape (c : Char) : List Char :=
  ['\\', 'u', '{'] ++ Nat.toDigits 16 c.toNat ++ ['}']

/-- A character as it stands between the quotes, with the quotation marks that are escaped. -/
def escape (marks : List Char) (c : Char) : List Char :=
  match c with
  | '\\' => ['\\', '\\']
  | '\x00' => ['\\', '0']
  | '\t' => ['\\', 't']
  | '\r' => ['\\', 'r']
  | '\n' => ['\\', 'n']
  | c =>
    if c ∈ marks then ['\\', c]
    else if standsAlone c then [c]
    else codePointEscape c

/-- **Quoting**: the escaped characters between double quotes. -/
def quoteWith (marks : List Char) (s : String) : String :=
  String.ofList ('"' :: s.toList.flatMap (escape marks) ++ ['"'])

/-- A part of a source in quotes. -/
def quote (s : String) : String := quoteWith ['"'] s

/-- The name of a file in quotes. -/
def quotePath (path : String) : String := quoteWith ['"', '\x27'] path

/-! ### What is shown -/

/-- What is written with visible characters of ASCII stands alone. -/
theorem standsAlone_of_mem_ascii {cs : List Char}
    (hcs : cs.all fun c => ' '.toNat ≤ c.toNat && c.toNat ≤ '~'.toNat) {c : Char} (h : c ∈ cs) :
    standsAlone c = true := by
  have hascii := List.all_eq_true.mp hcs c h
  rw [Bool.and_eq_true, decide_eq_true_eq, decide_eq_true_eq] at hascii
  exact standsAlone_of_ascii hascii.1 hascii.2

theorem standsAlone_digitChar {d : Nat} (h : d < 16) : standsAlone (Nat.digitChar d) = true := by
  have hdigits : ∀ d < 16, Nat.digitChar d ∈ "0123456789abcdef".toList := by decide
  exact standsAlone_of_mem_ascii (by decide) (hdigits d h)

theorem standsAlone_of_mem_toDigits {n : Nat} {c : Char} (h : c ∈ Nat.toDigits 16 n) :
    standsAlone c = true := by
  induction n using Nat.strongRecOn with
  | ind n ih =>
    obtain hn | hn := Nat.lt_or_ge n 16
    · rw [Nat.toDigits_of_lt_base hn, List.mem_singleton] at h
      rw [h]
      exact standsAlone_digitChar hn
    · rw [Nat.toDigits_of_base_le (by decide) hn, List.mem_append, List.mem_singleton] at h
      obtain h | rfl := h
      · exact ih (n / 16) (Nat.div_lt_self (by omega) (by decide)) h
      · exact standsAlone_digitChar (Nat.mod_lt n (by decide))

theorem standsAlone_of_mem_codePointEscape {c d : Char} (h : d ∈ codePointEscape c) :
    standsAlone d = true := by
  obtain h | h := List.mem_append.mp h
  · obtain h | h := List.mem_append.mp h
    · exact standsAlone_of_mem_ascii (by decide) h
    · exact standsAlone_of_mem_toDigits h
  · exact standsAlone_of_mem_ascii (by decide) h

theorem standsAlone_of_mem_escape {marks : List Char} (hmarks : ∀ m ∈ marks, standsAlone m = true)
    {c d : Char} (h : d ∈ escape marks c) : standsAlone d = true := by
  unfold escape at h
  split at h
  -- The five characters with an escape of one letter, or of another backslash.
  iterate 5 exact standsAlone_of_mem_ascii (by decide) h
  split at h
  · next hmark =>
    obtain rfl | h := List.mem_cons.mp h
    · exact standsAlone_of_ascii (by decide) (by decide)
    · rw [List.mem_singleton.mp h]
      exact hmarks _ hmark
  · split at h
    · next halone =>
      rw [List.mem_singleton.mp h]
      exact halone
    · exact standsAlone_of_mem_codePointEscape h

/-- **All that is shown stands alone**, if the marks do, so that a quoted text is on one line. -/
theorem standsAlone_of_mem_quoteWith {marks : List Char}
    (hmarks : ∀ m ∈ marks, standsAlone m = true) (s : String) :
    ∀ c ∈ (quoteWith marks s).toList, standsAlone c = true := by
  have hquote : standsAlone '"' = true := standsAlone_of_ascii (by decide) (by decide)
  intro c hc
  rw [quoteWith, String.toList_ofList, List.cons_append, List.mem_cons, List.mem_append,
    List.mem_singleton] at hc
  obtain rfl | hc | rfl := hc
  · exact hquote
  · obtain ⟨d, -, hd⟩ := List.mem_flatMap.mp hc
    exact standsAlone_of_mem_escape hmarks hd
  · exact hquote

/-- An accent does not stand alone, and neither does a code point that is no character. -/
example : quote "e\u0301\uFFFF" = "\"e\\u\x7b301\x7d\\u\x7bffff\x7d\"" := by decide +kernel

/-- The single mark does, so it is only in the name of a file that it is escaped. -/
example : quote "it\x27s" = "\"it\x27s\"" ∧ quotePath "it\x27s" = "\"it\\\x27s\"" := by
  decide +kernel

end LoxFront.Text
