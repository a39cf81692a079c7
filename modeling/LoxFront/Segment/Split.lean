import LoxFront.Segment.Basic

/-!
# Cutting a source into segments

`Segment.first` cuts the longest segment off the front of a text that is not empty,
and `segments` repeats this to the end. At most two characters beyond a segment
decide where it ends, except for a string, which ends at its closing quote.

* `text_first` and `flatMap_text_segments`: nothing is lost and nothing is added.
* `wellFormed_first`: a cut has the shape of its class.
* `length_rest_first`: a cut leaves less than it found, which is why `segments` ends.
-/

namespace LoxFront

namespace Segment

/-- The segment after an opening quote: the text to the next quote, or to the end. -/
def cutString (cs : List Char) : Segment × List Char :=
  match cs.dropWhile (· != '"') with
  | [] => (openString cs, [])
  | _ :: rest => (string (cs.takeWhile (· != '"')), rest)

/-- The numeral at the front. A point belongs to it only if a digit follows. -/
def cutNumber (cs : List Char) : Segment × List Char :=
  let whole := cs.takeWhile Char.isDigit
  match cs.dropWhile Char.isDigit with
  | '.' :: d :: rest =>
    if d.isDigit then
      (number ⟨whole, d :: rest.takeWhile Char.isDigit⟩, rest.dropWhile Char.isDigit)
    else (number ⟨whole, []⟩, '.' :: d :: rest)
  | rest => (number ⟨whole, []⟩, rest)

/-- The segment that begins with a one-character operator: a comment if there are two
slashes, the wider operator if an equals sign makes one, else the operator itself. -/
def cutOperator (op : Operator) (cs : List Char) : Segment × List Char :=
  match op, op.withEqual?, cs with
  | .slash, _, '/' :: rest =>
    (comment (rest.takeWhile (· != '\n')), rest.dropWhile (· != '\n'))
  | _, some wide, '=' :: rest => (operator wide, rest)
  | _, _, _ => (operator op, cs)

/-- **The first segment** of the text `c :: cs`, and the rest of the text. -/
def first (c : Char) (cs : List Char) : Segment × List Char :=
  if isBlank c then (blank c, cs)
  else if c = '"' then cutString cs
  else if c.isDigit then cutNumber (c :: cs)
  else if isWordStart c then (word (c :: cs.takeWhile isWordPart), cs.dropWhile isWordPart)
  else match Operator.ofChar? c with
    | some op => cutOperator op cs
    | none => (stray c, cs)

/-! ### Nothing is lost -/

theorem text_cutString (cs : List Char) :
    (cutString cs).1.text ++ (cutString cs).2 = '"' :: cs := by
  have split := List.takeWhile_append_dropWhile (p := (· != '"')) (l := cs)
  have head := List.head?_dropWhile_not (· != '"') cs
  unfold cutString
  generalize cs.takeWhile (· != '"') = value at split ⊢
  generalize cs.dropWhile (· != '"') = after at split head ⊢
  subst split
  -- If anything follows the value, it begins with the closing quote.
  cases after with
  | nil => simp [text]
  | cons q rest => simp_all [text]

theorem text_cutNumber (cs : List Char) : (cutNumber cs).1.text ++ (cutNumber cs).2 = cs := by
  have split := List.takeWhile_append_dropWhile (p := Char.isDigit) (l := cs)
  unfold cutNumber
  generalize cs.takeWhile Char.isDigit = whole at split ⊢
  generalize cs.dropWhile Char.isDigit = after at split ⊢
  subst split
  split
  · split <;> simp [text]
  · simp [text]

theorem text_cutOperator (op : Operator) (cs : List Char) :
    (cutOperator op cs).1.text ++ (cutOperator op cs).2 = op.text.toList ++ cs := by
  unfold cutOperator
  split
  · simp [text, Operator.text]
  · rename_i wide rest h
    simp [text, Operator.text_withEqual? h]
  · rfl

theorem text_first (c : Char) (cs : List Char) :
    (first c cs).1.text ++ (first c cs).2 = c :: cs := by
  unfold first
  split
  · rfl
  split
  · rename_i h
    rw [text_cutString, h]
  split
  · exact text_cutNumber _
  split
  · simp [text]
  split
  · rename_i op h
    rw [text_cutOperator, Operator.text_ofChar? h, String.toList_singleton, List.singleton_append]
  · rfl

/-! ### Every cut has the shape of its class -/

theorem forall_mem_takeWhile {p : Char → Bool} {cs : List Char} :
    ∀ c ∈ cs.takeWhile p, p c = true :=
  List.all_eq_true.1 List.all_takeWhile

theorem wellFormed_cutString (cs : List Char) : (cutString cs).1.WellFormed := by
  have split := List.takeWhile_append_dropWhile (p := (· != '"')) (l := cs)
  unfold cutString
  split
  · rename_i h
    rw [h, List.append_nil] at split
    -- The whole text was taken, so a quote in it would have been taken too.
    intro hq
    rw [← split] at hq
    simpa using forall_mem_takeWhile _ hq
  · intro hq
    simpa using forall_mem_takeWhile _ hq

theorem wellFormed_cutNumber {d : Char} (cs : List Char) (hd : d.isDigit = true) :
    (cutNumber (d :: cs)).1.WellFormed := by
  have whole : (d :: cs).takeWhile Char.isDigit ≠ [] := by simp [hd]
  unfold cutNumber
  split
  · split
    · rename_i h
      refine ⟨whole, forall_mem_takeWhile, ?_⟩
      simpa [h] using fun c hc => forall_mem_takeWhile c hc
    · exact ⟨whole, forall_mem_takeWhile, by simp⟩
  · exact ⟨whole, forall_mem_takeWhile, by simp⟩

theorem wellFormed_cutOperator (op : Operator) (cs : List Char) :
    (cutOperator op cs).1.WellFormed := by
  unfold cutOperator
  split
  · intro h
    simpa using forall_mem_takeWhile _ h
  · trivial
  · trivial

theorem wellFormed_first (c : Char) (cs : List Char) : (first c cs).1.WellFormed := by
  unfold first
  split
  · assumption
  split
  · exact wellFormed_cutString cs
  split
  · exact wellFormed_cutNumber cs ‹_›
  split
  · rename_i h
    refine ⟨⟨c, rfl, h⟩, ?_⟩
    simpa [isWordPart, h] using fun d hd => forall_mem_takeWhile (p := isWordPart) d hd
  split
  · exact wellFormed_cutOperator _ _
  · simp_all [WellFormed, isWordPart]

theorem length_rest_first (c : Char) (cs : List Char) :
    (first c cs).2.length < (c :: cs).length := by
  -- The text and the rest make up the whole, and the text is not empty.
  have h := congrArg List.length (text_first c cs)
  have h' := List.length_pos_iff.2 (wellFormed_first c cs).text_ne_nil
  rw [List.length_append] at h
  omega

end Segment

/-- **The segments of a text**, from left to right. -/
def segments : List Char → List Segment
  | [] => []
  | c :: cs =>
    let cut := Segment.first c cs
    cut.1 :: segments cut.2
termination_by cs => cs.length
decreasing_by exact Segment.length_rest_first c cs

@[simp] theorem segments_nil : segments [] = [] := by rw [segments]

theorem segments_cons (c : Char) (cs : List Char) :
    segments (c :: cs) = (Segment.first c cs).1 :: segments (Segment.first c cs).2 := by
  rw [segments]

@[simp] theorem flatMap_text_segments (cs : List Char) :
    (segments cs).flatMap Segment.text = cs := by
  induction cs using segments.induct with
  | case1 => simp
  | case2 c cs cut ih =>
    rw [segments_cons, List.flatMap_cons, ih, Segment.text_first]

end LoxFront
