import SafetyCrit.Library.Search

/-!
Owns lookup by first occurrence in text made of `"name":value` fields.

A key is looked for as text, so it could be found inside a value or across a
field's end. The lemmas say that it is not: a field with another name is
skipped as a whole, and a field with the name is where the search stops.
-/

namespace SafetyCrit.Library.FlatFields

open SafetyCrit.Library.Search

/-- The text a field is looked up by: `"name":`, with the opening quote of the
value where that is a string. -/
def key (quoted : Bool) (name : List Char) : List Char :=
  '"' :: (name ++ '"' :: ':' :: if quoted then ['"'] else [])

/-- The key of a number field. -/
abbrev numberKey (name : List Char) : List Char := key false name

/-- The key of a string field. -/
abbrev stringKey (name : List Char) : List Char := key true name

/-- Names start with a letter and have no quote. -/
structure Tag (name : List Char) : Prop where
  starts : ∃ first rest, name = first :: rest ∧ first.isAlpha = true
  quoteFree : '"' ∉ name

/-- Names are letters only. -/
def Word (name : List Char) : Prop := name ≠ [] ∧ ∀ symbol ∈ name, symbol.isAlpha = true

instance (name : List Char) : Decidable (Word name) :=
  @instDecidableAnd _ _ inferInstance
    (List.decidableBAll (fun symbol => symbol.isAlpha = true) name)

/-- A symbol that can stand behind a field. -/
def Separator (symbol : Char) : Prop := symbol ≠ '"' ∧ symbol ≠ ':' ∧ symbol.isAlpha = false

instance (symbol : Char) : Decidable (Separator symbol) := inferInstanceAs (Decidable (_ ∧ _))

theorem Word.not_mem {name : List Char} (word : Word name) {symbol : Char}
    (other : symbol.isAlpha = false) : symbol ∉ name := by
  intro member
  rw [word.2 symbol member] at other
  cases other

theorem Word.tag {name : List Char} (word : Word name) : Tag name := by
  obtain ⟨first, rest, rfl⟩ := List.exists_cons_of_ne_nil word.1
  exact ⟨⟨first, rest, rfl, word.2 first (by simp)⟩, word.not_mem (by decide)⟩

/-- A key, of either kind, ends its name with a quote and a colon. -/
theorem Tag.not_prefix_cons {name tail rest : List Char} (tag : Tag name) {next : Char}
    (other : next.isAlpha = false) : ¬ '"' :: (name ++ tail) <+: '"' :: next :: rest := by
  intro starts
  obtain ⟨first, more, rfl, alpha⟩ := tag.starts
  rw [List.cons_append, List.cons_prefix_cons, List.cons_prefix_cons] at starts
  rw [starts.2.1, other] at alpha
  cases alpha

section Skip

variable {quoted : Bool} {name : List Char}

/-- A symbol that is not a quote is passed over. -/
theorem after_cons_plain {symbol : Char} (plain : symbol ≠ '"') (rest : List Char) :
    after (key quoted name) (symbol :: rest) = after (key quoted name) rest := by
  refine after_cons_of_unprefixed fun starts => ?_
  rw [key, List.cons_prefix_cons] at starts
  exact plain starts.1.symm

/-- Text without quotes is passed over. -/
theorem after_plain {text : List Char} (plain : '"' ∉ text) (rest : List Char) :
    after (key quoted name) (text ++ rest) = after (key quoted name) rest :=
  after_pass plain

/-- The name of another field is passed over. -/
theorem after_other_tag (tag : Tag name) {other : List Char} (otherTag : Tag other)
    (different : name ≠ other) (rest : List Char) :
    after (key quoted name) ('"' :: (other ++ '"' :: ':' :: rest)) =
      after (key quoted name) rest := by
  rw [after_cons_of_unprefixed, after_plain otherTag.quoteFree, after_cons_of_unprefixed,
    after_cons_plain (by decide)]
  · exact tag.not_prefix_cons (by decide)
  · intro starts
    rw [key, List.cons_prefix_cons, delimited_prefix_iff tag.quoteFree otherTag.quoteFree] at starts
    exact different starts.2.1

/-- The name of another field is passed over. -/
theorem after_other_name (word : Word name) {other : List Char} (otherWord : Word other)
    (different : name ≠ other) (rest : List Char) :
    after (key quoted name) ('"' :: (other ++ '"' :: ':' :: rest)) =
      after (key quoted name) rest :=
  after_other_tag word.tag otherWord.tag different rest

/-- A quoted value is passed over. -/
theorem after_quoted_tag (tag : Tag name) {value : List Char} (plain : '"' ∉ value)
    {separator : Char} (separates : Separator separator) (rest : List Char) :
    after (key quoted name) ('"' :: (value ++ '"' :: separator :: rest)) =
      after (key quoted name) rest := by
  rw [after_cons_of_unprefixed, after_plain plain, after_cons_of_unprefixed,
    after_cons_plain separates.1]
  · exact tag.not_prefix_cons separates.2.2
  · intro starts
    rw [key, List.cons_prefix_cons, delimited_prefix_iff tag.quoteFree plain,
      List.cons_prefix_cons] at starts
    exact separates.2.1 starts.2.2.1.symm

/-! ### Whole fields -/

/-- A field: whether its value is a string, its name and its value. -/
structure Field where
  quoted : Bool
  name : List Char
  value : List Char

/-- The value of a field, with its closing quote, in front of `rest`. -/
def Field.body (field : Field) (rest : List Char) : List Char :=
  field.value ++ if field.quoted then '"' :: rest else rest

/-- A field in front of `rest`. -/
def Field.text (field : Field) (rest : List Char) : List Char :=
  key field.quoted field.name ++ field.body rest

/-- A field whose text a search passes over, with any name. -/
structure Field.Tagged (field : Field) : Prop where
  tag : Tag field.name
  plain : '"' ∉ field.value

/-- A field whose text a search passes over. -/
structure Field.Plain (field : Field) : Prop where
  word : Word field.name
  plain : '"' ∉ field.value

theorem Field.Plain.tagged {field : Field} (plain : field.Plain) : field.Tagged :=
  ⟨plain.word.tag, plain.plain⟩

/-- A field with another name is skipped. -/
theorem after_tagged (tag : Tag name) {field : Field} (tagged : field.Tagged)
    (different : name ≠ field.name) {separator : Char} (separates : Separator separator)
    (rest : List Char) :
    after (key quoted name) (field.text (separator :: rest)) = after (key quoted name) rest := by
  have shape : field.text (separator :: rest) =
      '"' :: (field.name ++ '"' :: ':' ::
        ((if field.quoted then ['"'] else []) ++ field.body (separator :: rest))) := by
    simp [Field.text, key]
  rw [shape, after_other_tag tag tagged.tag different, Field.body]
  cases field.quoted with
  | true =>
      rw [if_pos rfl, if_pos rfl, List.singleton_append,
        after_quoted_tag tag tagged.plain separates]
  | false =>
      rw [if_neg (by decide), if_neg (by decide), List.nil_append, after_plain tagged.plain,
        after_cons_plain separates.1]

/-- A field with another name is skipped. -/
theorem after_field (word : Word name) {field : Field} (plain : field.Plain)
    (different : name ≠ field.name) {separator : Char} (separates : Separator separator)
    (rest : List Char) :
    after (key quoted name) (field.text (separator :: rest)) = after (key quoted name) rest :=
  after_tagged word.tag plain.tagged different separates rest

/-- Fields, each with a comma behind it, in front of `rest`. -/
def render (fields : List Field) (rest : List Char) : List Char :=
  fields.foldr (fun field text => field.text (',' :: text)) rest

/-- Fields with other names are skipped. -/
theorem after_render_tag (tag : Tag name) {fields : List Field}
    (tagged : ∀ field ∈ fields, field.Tagged) (different : ∀ field ∈ fields, name ≠ field.name)
    (rest : List Char) :
    after (key quoted name) (render fields rest) = after (key quoted name) rest := by
  induction fields with
  | nil => rfl
  | cons field fields inductionHypothesis =>
      have comma : Separator ',' := by decide
      have first : after (key quoted name) (field.text (',' :: render fields rest)) =
          after (key quoted name) (render fields rest) :=
        after_tagged tag (tagged field (by simp)) (different field (by simp)) comma _
      rw [← inductionHypothesis (fun other member => tagged other (by simp [member]))
        (fun other member => different other (by simp [member])), ← first]
      rfl

/-- Fields with other names are skipped. -/
theorem after_render_other (word : Word name) {fields : List Field}
    (plain : ∀ field ∈ fields, field.Plain) (different : ∀ field ∈ fields, name ≠ field.name)
    (rest : List Char) :
    after (key quoted name) (render fields rest) = after (key quoted name) rest :=
  after_render_tag word.tag (fun field member => (plain field member).tagged) different rest

/-- A field is found behind fields with other names. -/
theorem after_render {front back : List Field} {field : Field}
    (plain : ∀ other ∈ front, other.Plain) (word : Word field.name)
    (different : ∀ other ∈ front, field.name ≠ other.name) (rest : List Char) :
    after (key field.quoted field.name) (render (front ++ field :: back) rest) =
      some (field.body (',' :: render back rest)) := by
  have split : render (front ++ field :: back) rest =
      render front (render (field :: back) rest) := by simp [render]
  rw [split, after_render_other word plain different]
  exact after_hit

/-! ### Fields with commas between them -/

/-- Fields with commas between them, in front of `rest`. -/
def joined : List Field → List Char → List Char
  | [], rest => rest
  | [field], rest => field.text rest
  | field :: next :: fields, rest => field.text (',' :: joined (next :: fields) rest)

theorem Field.text_append (field : Field) (first second : List Char) :
    field.text (first ++ second) = field.text first ++ second := by
  unfold Field.text Field.body
  split <;> simp

theorem joined_append (fields : List Field) (first second : List Char) :
    joined fields (first ++ second) = joined fields first ++ second := by
  induction fields with
  | nil => rfl
  | cons field fields inductionHypothesis =>
      cases fields with
      | nil => exact field.text_append first second
      | cons next fields =>
          rw [joined, inductionHypothesis, joined, ← List.cons_append, Field.text_append]

/-- A field is found among fields with distinct names. -/
theorem after_joined {fields : List Field} {field : Field} (member : field ∈ fields)
    (tagged : ∀ other ∈ fields, other.Tagged) (distinct : (fields.map Field.name).Nodup)
    {separator : Char} (separates : Separator separator) (rest : List Char) :
    ∃ behind more, (behind = ',' ∨ behind = separator) ∧
      after (key field.quoted field.name) (joined fields (separator :: rest)) =
        some (field.body (behind :: more)) := by
  induction fields with
  | nil => cases member
  | cons first others inductionHypothesis =>
      obtain ⟨fresh, othersDistinct⟩ := List.nodup_cons.mp distinct
      -- what stands behind the first field, with a comma or at the end
      obtain ⟨behind, more, ends, shape, inside⟩ : ∃ behind more,
          (behind = ',' ∨ behind = separator) ∧
          joined (first :: others) (separator :: rest) = first.text (behind :: more) ∧
          (others ≠ [] → more = joined others (separator :: rest)) := by
        cases others with
        | nil => exact ⟨separator, rest, Or.inr rfl, rfl, fun some_ => absurd rfl some_⟩
        | cons next others => exact ⟨',', _, Or.inl rfl, rfl, fun _ => rfl⟩
      have separated : Separator behind := by
        rcases ends with rfl | rfl
        · decide
        · exact separates
      rw [shape]
      rcases List.mem_cons.mp member with rfl | later
      · exact ⟨behind, more, ends, after_hit⟩
      · have differs : field.name ≠ first.name := fun same =>
          fresh (same ▸ List.mem_map_of_mem later)
        rw [after_tagged (tagged field (by simp [later])).tag (tagged first (by simp)) differs
          separated, inside (List.ne_nil_of_mem later)]
        exact inductionHypothesis later (fun other inOthers => tagged other (by simp [inOthers]))
          othersDistinct

/-- A name that no field has is not found. -/
theorem after_joined_other {fields : List Field} (tag : Tag name)
    (tagged : ∀ other ∈ fields, other.Tagged) (different : ∀ other ∈ fields, name ≠ other.name)
    {separator : Char} (separates : Separator separator) (rest : List Char) :
    after (key quoted name) (joined fields (separator :: rest)) =
      after (key quoted name) (if fields = [] then separator :: rest else rest) := by
  induction fields with
  | nil => rfl
  | cons first others inductionHypothesis =>
      rw [if_neg (List.cons_ne_nil first others)]
      have skip : ∀ {behind : Char} (_ : Separator behind) (more : List Char),
          after (key quoted name) (first.text (behind :: more)) = after (key quoted name) more :=
        fun separated more =>
          after_tagged tag (tagged first (by simp)) (different first (by simp)) separated more
      cases others with
      | nil => exact skip separates rest
      | cons next others =>
          have later := inductionHypothesis
            (fun other member => tagged other (by simp [member]))
            (fun other member => different other (by simp [member]))
          rw [if_neg (List.cons_ne_nil next others)] at later
          rw [joined, skip (by decide), later]

end Skip

end SafetyCrit.Library.FlatFields
