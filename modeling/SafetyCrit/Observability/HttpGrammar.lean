import Mathlib.Data.List.DropRight
import SafetyCrit.Observability.HttpBounds

/-!
Owns the grammar of request heads: which heads the server answers with 400,
against the grammar of HTTP, and what that means for requests with a body.

The server asks less than the grammar does. A method may hold NUL bytes, since
`strchr` finds the end of its string, and any text in front of a colon passes as
the name of a header. A body is declared to it by `Content-Length` alone.
-/

namespace SafetyCrit.Observability.Http

open SafetyCrit.Library.Search

/-! ### Last occurrences -/

theorem findLast_split {symbol : Char} {left right : List Char} (foreign : symbol ∉ right) :
    findLast symbol (left ++ symbol :: right) = some left.length := by
  have reversed : (left ++ symbol :: right).reverse = right.reverse ++ symbol :: left.reverse := by
    simp
  rw [findLast, reversed, find_symbol (by simpa using foreign), Option.map_some]
  simp only [List.length_append, List.length_cons, List.length_reverse, Option.some.injEq]
  omega

theorem split_of_findLast {symbol : Char} {text : List Char} {last : Nat}
    (found : findLast symbol text = some last) :
    text = text.take last ++ symbol :: text.drop (last + 1) ∧ symbol ∉ text.drop (last + 1) := by
  obtain ⟨back, foundBack, rfl⟩ := Option.map_eq_some_iff.mp found
  obtain ⟨shape, foreign⟩ := split_of_find_symbol foundBack
  have whole := congrArg List.reverse shape
  rw [List.reverse_reverse, List.reverse_append, List.reverse_cons, List.append_assoc,
    List.singleton_append] at whole
  have inside : back < text.length := by
    have bound := end_le_of_find foundBack
    rw [List.length_reverse, List.length_singleton] at bound
    omega
  generalize (text.reverse.drop (back + 1)).reverse = left at whole
  have size : (text.reverse.take back).reverse.length = back := by
    rw [List.length_reverse, List.length_take, List.length_reverse]
    omega
  rw [← List.mem_reverse] at foreign
  generalize (text.reverse.take back).reverse = right at whole size foreign
  subst whole
  subst size
  have place : (left ++ symbol :: right).length - 1 - right.length = left.length := by
    rw [List.length_append, List.length_cons]
    omega
  rw [place, List.take_left, ← List.drop_drop, List.drop_left]
  exact ⟨rfl, foreign⟩

/-! ### The grammar -/

/-- The characters of a token. -/
def isTokenSymbol (symbol : Char) : Bool :=
  symbol.isAlphanum || symbol ∈ "!#$%&'*+-.^_`|~".toList

def IsToken (text : List Char) : Prop := text ≠ [] ∧ ∀ symbol ∈ text, isTokenSymbol symbol = true

theorem isToken_iff_all (text : List Char) :
    text ≠ [] ∧ text.all isTokenSymbol = true ↔ IsToken text := by
  rw [List.all_eq_true, IsToken]

instance (text : List Char) : Decidable (IsToken text) :=
  decidable_of_iff _ (isToken_iff_all text)

def IsTarget (text : List Char) : Prop :=
  text ≠ [] ∧ ∀ symbol ∈ text, symbol ≠ ' ' ∧ isControl symbol = false


/-- A method, a target and a version, each behind one space. -/
def LineForm (Method : List Char → Prop) (line : List Char) : Prop :=
  ∃ method target version, line = method ++ ' ' :: (target ++ ' ' :: version) ∧ Method method ∧
    IsTarget target ∧ (version = "HTTP/1.0".toList ∨ version = "HTTP/1.1".toList)

/-- A name, a colon and a value; the name is not `Content-Length`. -/
def FieldForm (Name : List Char → Prop) (field : List Char) : Prop :=
  ∃ name value, field = name ++ ':' :: value ∧ ':' ∉ name ∧ Name name ∧
    name.map Char.toLower ≠ "content-length".toList

namespace RequestHead

/-- The grammar of request heads. -/
def Grammatical (head : RequestHead) : Prop :=
  LineForm IsToken head.line ∧ ∀ field ∈ head.fields, FieldForm IsToken field

/-- What the server asks of a head. -/
def Accepted (head : RequestHead) : Prop :=
  LineForm (fun method => tokenChars method = true) head.line ∧
    ∀ field ∈ head.fields, FieldForm (fun name => name ≠ []) field

end RequestHead

/-! ### What the server accepts -/

theorem targetValid_iff (text : List Char) : targetValid text = true ↔ IsTarget text := by
  have tab : isControl '\t' = true := by decide
  rw [targetValid, Bool.and_eq_true, Bool.not_eq_true', List.isEmpty_eq_false_iff, List.all_eq_true,
    IsTarget]
  refine and_congr_right fun _ => forall₂_congr fun symbol _ => ?_
  by_cases tabbed : symbol = '\t'
  · simp [tabbed, tab]
  · simp [tabbed, and_comm]

theorem tokenChars_iff (text : List Char) :
    tokenChars text = true ↔
      text ≠ [] ∧ ∀ symbol ∈ text, isTokenSymbol symbol = true ∨ symbol = '\x00' := by
  rw [tokenChars, Bool.and_eq_true, Bool.not_eq_true', List.isEmpty_eq_false_iff, List.all_eq_true]
  refine and_congr_right fun _ => forall₂_congr fun symbol _ => ?_
  rw [isTokenSymbol, Bool.or_eq_true, decide_eq_true_eq]

theorem space_not_mem_of_tokenChars {text : List Char} (token : tokenChars text = true) :
    ' ' ∉ text := by
  intro member
  rw [tokenChars, Bool.and_eq_true, List.all_eq_true] at token
  exact absurd (token.2 ' ' member) (by decide)

theorem space_not_mem_of_version {version : List Char}
    (known : version = "HTTP/1.0".toList ∨ version = "HTTP/1.1".toList) : ' ' ∉ version := by
  rcases known with rfl | rfl
  · decide
  · decide

/-- The scratch buffer is long enough for the name that is looked for. -/
theorem lowerAscii_contentLength_iff (name : List Char) :
    lowerAscii name 64 = "content-length".toList ↔
      name.map Char.toLower = "content-length".toList := by
  have size : "content-length".toList.length = 14 := by decide
  rw [lowerAscii]
  split_ifs with long
  · constructor
    · intro empty
      rw [← empty] at size
      cases size
    · intro same
      have lengths := congrArg List.length same
      rw [List.length_map] at lengths
      omega
  · exact Iff.rfl

/-- A header line passes the header loop exactly when it has the form the server
asks for. -/
theorem headerLine_other_iff (field : List Char) :
    (∃ close, headerLine field = .other close) ↔ FieldForm (fun name => name ≠ []) field := by
  constructor
  · rintro ⟨close, other⟩
    unfold headerLine at other
    split_ifs at other with empty
    split at other
    · cases other
    · cases other
    · next colon nonzero found =>
      obtain ⟨shape, free⟩ := split_of_find_symbol found
      dsimp only at other
      split_ifs at other with body
      refine ⟨_, _, shape, free, fun nothing => nonzero ?_, ?_⟩
      · exact (List.take_eq_nil_iff.mp nothing).resolve_right empty
      · exact (lowerAscii_contentLength_iff _).not.mp body
  · rintro ⟨name, value, rfl, free, filled, other⟩
    have found : find [':'] (name ++ ':' :: value) = some name.length := find_symbol free
    unfold headerLine
    rw [if_neg (by simp)]
    split
    · next absent => cases absent.symm.trans found
    · next zero =>
      have size := Option.some.inj (zero.symm.trans found)
      exact absurd (List.length_eq_zero_iff.mp size.symm) filled
    · next colon _ located =>
      cases located.symm.trans found
      dsimp only
      rw [List.take_left, if_neg ((lowerAscii_contentLength_iff _).not.mpr other)]
      exact ⟨_, rfl⟩

/-- The header loop takes the lines one by one. -/
theorem headerLoop_cons {field : List Char} {fields : List (List Char)} (filled : field ≠ [])
    (free : ¬ crlf <:+: field) (keepAlive : Bool) :
    (headerLine field = .malformed ∨ headerLine field = .body →
      headerLoop (crlf.intercalate (field :: fields)) keepAlive = none) ∧
    ∀ close, headerLine field = .other close →
      headerLoop (crlf.intercalate (field :: fields)) keepAlive =
        headerLoop (crlf.intercalate fields) (keepAlive && !close) := by
  have cut : crlf.intercalate (field :: fields) ≠ [] ∧
      (find crlf (crlf.intercalate (field :: fields)) = none ∧
          crlf.intercalate (field :: fields) = field ∧ crlf.intercalate fields = [] ∨
        ∃ position, find crlf (crlf.intercalate (field :: fields)) = some position ∧
          (crlf.intercalate (field :: fields)).take position = field ∧
          (crlf.intercalate (field :: fields)).drop (position + 2) = crlf.intercalate fields) := by
    cases fields with
    | nil =>
        rw [List.intercalate_singleton]
        exact ⟨filled, Or.inl ⟨find_eq_none_iff.mpr free, rfl, rfl⟩⟩
    | cons other fields =>
        rw [List.intercalate_cons_cons]
        refine ⟨by simp [filled], Or.inr ⟨_, find_crlf_line free _, ?_, ?_⟩⟩
        · rw [List.append_assoc, List.take_left]
        · exact List.drop_left' List.length_append
  generalize crlf.intercalate (field :: fields) = region at cut
  obtain ⟨nonempty, ⟨alone, rfl, rest⟩ | ⟨position, found, line, rest⟩⟩ := cut
  · rw [headerLoop, if_neg nonempty]
    dsimp only
    rw [alone, rest]
    dsimp only
    refine ⟨fun bad => ?_, fun close other => by rw [other]⟩
    rcases bad with bad | bad
    · rw [bad]
    · rw [bad]
  · rw [headerLoop, if_neg nonempty]
    dsimp only
    rw [found]
    dsimp only
    rw [line, rest]
    refine ⟨fun bad => ?_, fun close other => by rw [other]⟩
    rcases bad with bad | bad
    · rw [bad]
    · rw [bad]

theorem headerLoop_eq_none_iff {fields : List (List Char)}
    (free : ∀ field ∈ fields, field ≠ [] ∧ ¬ crlf <:+: field) (keepAlive : Bool) :
    headerLoop (crlf.intercalate fields) keepAlive = none ↔
      ¬ ∀ field ∈ fields, ∃ close, headerLine field = .other close := by
  induction fields generalizing keepAlive with
  | nil =>
      rw [List.intercalate_nil, headerLoop, if_pos rfl]
      simp
  | cons field fields inductionHypothesis =>
      rw [List.forall_mem_cons] at free
      obtain ⟨⟨filled, fieldFree⟩, othersFree⟩ := free
      obtain ⟨stops, continues⟩ := @headerLoop_cons field fields filled fieldFree keepAlive
      rw [List.forall_mem_cons]
      cases passed : headerLine field with
      | malformed => simp [stops (Or.inl passed)]
      | body => simp [stops (Or.inr passed)]
      | other close =>
          rw [continues close passed, inductionHypothesis othersFree]
          simp

/-- The first and the last space cut a request line as its form says. -/
theorem lineForm_iff (line : List Char) :
    LineForm (fun method => tokenChars method = true) line ↔
      ∃ first last, find [' '] line = some first ∧ findLast ' ' line = some last ∧ last ≠ first ∧
        tokenChars (line.take first) = true ∧
        targetValid ((line.drop (first + 1)).take (last - first - 1)) = true ∧
        (line.drop (last + 1) = "HTTP/1.0".toList ∨ line.drop (last + 1) = "HTTP/1.1".toList) := by
  constructor
  · rintro ⟨method, target, version, shape, token, valid, known⟩
    have front : line = (method ++ ' ' :: target) ++ ' ' :: version := by
      rw [shape, List.append_assoc, List.cons_append]
    have found : find [' '] line = some method.length := by
      rw [shape, find_symbol (space_not_mem_of_tokenChars token)]
    have foundLast : findLast ' ' line = some (method ++ ' ' :: target).length := by
      rw [front, findLast_split (space_not_mem_of_version known)]
    have size : (method ++ ' ' :: target).length = method.length + (1 + target.length) := by
      rw [List.length_append, List.length_cons, Nat.add_comm target.length]
    have behind : line.drop (method.length + 1) = target ++ ' ' :: version := by
      rw [shape, ← List.drop_drop, List.drop_left]
      rfl
    have version_eq : line.drop ((method ++ ' ' :: target).length + 1) = version := by
      rw [front, ← List.drop_drop, List.drop_left]
      rfl
    refine ⟨_, _, found, foundLast, by omega, ?_, ?_, by rwa [version_eq]⟩
    · rwa [shape, List.take_left]
    · have inner : (method ++ ' ' :: target).length - method.length - 1 = target.length := by omega
      rwa [behind, inner, List.take_left, targetValid_iff]
  · rintro ⟨first, last, found, foundLast, different, token, valid, known⟩
    obtain ⟨shape, free⟩ := split_of_find_symbol found
    obtain ⟨tailShape, tailFree⟩ := split_of_findLast foundLast
    have behind : line.drop last = ' ' :: line.drop (last + 1) := by
      have inside : last ≤ line.length := by
        have size := congrArg List.length tailShape
        rw [List.length_append, List.length_cons, List.length_take, List.length_drop] at size
        omega
      nth_rewrite 1 [tailShape]
      exact List.drop_left' (by rw [List.length_take]; omega)
    have ordered : first < last := by
      by_contra later
      refine not_prefix_before_find found (by omega : last < first) ?_
      rw [behind]
      exact ⟨_, rfl⟩
    refine ⟨_, _, _, ?_, token, (targetValid_iff _).mp valid, known⟩
    have middle : line.drop (first + 1) =
        (line.drop (first + 1)).take (last - first - 1) ++ ' ' :: line.drop (last + 1) := by
      nth_rewrite 1 [← List.take_append_drop (last - first - 1) (line.drop (first + 1))]
      rw [List.drop_drop, ← behind]
      congr 2
      omega
    rw [← middle]
    exact shape

theorem decideLines_eq_badRequest_iff (line : List Char) {fields : List (List Char)}
    (free : ∀ field ∈ fields, field ≠ [] ∧ ¬ crlf <:+: field) :
    decideLines line (crlf.intercalate fields) = .badRequest ↔
      ¬ (LineForm (fun method => tokenChars method = true) line ∧
        ∀ field ∈ fields, FieldForm (fun name => name ≠ []) field) := by
  have passes : (∀ field ∈ fields, FieldForm (fun name => name ≠ []) field) ↔
      ∀ field ∈ fields, ∃ close, headerLine field = .other close :=
    forall₂_congr fun field _ => (headerLine_other_iff field).symm
  rw [lineForm_iff, passes]
  unfold decideLines
  split
  · next first last found foundLast =>
    dsimp only
    split_ifs with same bad
    · refine iff_of_true rfl ?_
      rintro ⟨⟨_, _, foundFirst, foundOther, different, -⟩, -⟩
      cases found.symm.trans foundFirst
      cases foundLast.symm.trans foundOther
      exact different same
    · refine iff_of_true rfl ?_
      rintro ⟨⟨_, _, foundFirst, foundOther, -, token, valid, known⟩, -⟩
      cases found.symm.trans foundFirst
      cases foundLast.symm.trans foundOther
      rcases bad with untoken | invalid | ⟨notOld, notNew⟩
      · exact untoken token
      · exact invalid valid
      · exact known.elim notOld notNew
    · rw [not_or, not_or, not_not, not_not, not_and_or, not_not, not_not] at bad
      obtain ⟨token, valid, known⟩ := bad
      have looped := headerLoop_eq_none_iff free
        (decide (line.drop (last + 1) = "HTTP/1.1".toList))
      split
      · next stopped =>
        exact iff_of_true rfl fun both => looped.mp stopped both.2
      · next keepAlive kept =>
        refine iff_of_false (by simp) (not_not.mpr ⟨?_, ?_⟩)
        · exact ⟨first, last, found, foundLast, same, token, valid, known⟩
        · by_contra stops
          rw [looped.mpr stops] at kept
          cases kept
  · next absent =>
    refine iff_of_true rfl ?_
    rintro ⟨⟨first, last, found, foundLast, -⟩, -⟩
    exact absent first last found foundLast

namespace RequestHead

variable {head : RequestHead}

theorem decideHead_badRequest_iff (head : RequestHead) :
    decideHead head.text = .badRequest ↔
      (¬ head.headerSection.length > kMaxHeaderBytes ∧
        ¬ head.headerSection.countP (· = '\n') + 1 > kMaxHeaderLines) ∧ ¬ head.Accepted := by
  rw [decideHead_text]
  split_ifs with large
  · refine iff_of_false (by simp) fun both => ?_
    exact not_or.mpr both.1 large
  · rw [headerSection, decideLines_eq_badRequest_iff head.line head.fieldsFree]
    exact (and_iff_right (not_or.mp large)).symm

theorem Grammatical.accepted (grammatical : head.Grammatical) : head.Accepted := by
  obtain ⟨⟨method, target, version, shape, token, valid, known⟩, fields⟩ := grammatical
  refine ⟨⟨method, target, version, shape, ?_, valid, known⟩, fun field member => ?_⟩
  · refine (tokenChars_iff method).mpr ⟨token.1, fun symbol inside => ?_⟩
    exact Or.inl (token.2 symbol inside)
  · obtain ⟨name, value, form, free, isToken, other⟩ := fields field member
    exact ⟨name, value, form, free, isToken.1, other⟩

theorem name_of_field {name : List Char} (free : ':' ∉ name) (value : List Char) :
    (name ++ ':' :: value).takeWhile (· ≠ ':') = name := by
  rw [List.takeWhile_append_of_pos, List.takeWhile_cons_of_neg, List.append_nil]
  · simp
  · intro symbol member
    rw [decide_eq_true_eq]
    rintro rfl
    exact free member

/-- Beyond the grammar the server accepts NUL bytes in the method and names that
are no tokens. -/
theorem grammatical_iff (head : RequestHead) :
    head.Grammatical ↔ head.Accepted ∧ '\x00' ∉ head.line ∧
      ∀ field ∈ head.fields, IsToken (field.takeWhile (· ≠ ':')) := by
  constructor
  · intro grammatical
    refine ⟨grammatical.accepted, ?_, fun field member => ?_⟩
    · obtain ⟨⟨method, target, version, shape, token, valid, known⟩, -⟩ := grammatical
      rw [shape, List.mem_append, List.mem_cons, List.mem_append, List.mem_cons]
      rintro (inMethod | space | inTarget | space | inVersion)
      · exact absurd (token.2 _ inMethod) (by decide)
      · exact absurd space (by decide)
      · exact absurd (valid.2 _ inTarget).2 (by decide)
      · exact absurd space (by decide)
      · rcases known with rfl | rfl
        · exact absurd inVersion (by decide)
        · exact absurd inVersion (by decide)
    · obtain ⟨name, value, rfl, free, token, -⟩ := grammatical.2 field member
      rwa [name_of_field free]
  · rintro ⟨⟨⟨method, target, version, shape, token, valid, known⟩, fields⟩, noNul, names⟩
    refine ⟨⟨method, target, version, shape, ?_, valid, known⟩, fun field member => ?_⟩
    · obtain ⟨filled, all⟩ := (tokenChars_iff method).mp token
      refine ⟨filled, fun symbol inside => (all symbol inside).resolve_right ?_⟩
      rintro rfl
      exact noNul (by rw [shape]; exact List.mem_append_left _ inside)
    · obtain ⟨name, value, shape, free, -, other⟩ := fields field member
      have token := names field member
      rw [shape, name_of_field free] at token
      exact ⟨name, value, shape, free, token, other⟩

/-- Within the bounds a head that is never refused gets 400 exactly where no size
check stops it and the server does not accept it. -/
theorem held_badRequest_iff (sized : ¬ head.Oversized) :
    head.Held ∧ decideHead head.text = .badRequest ↔ head.Admitted ∧ ¬ head.Accepted := by
  rw [decideHead_badRequest_iff]
  constructor
  · rintro ⟨held, ⟨-, few⟩, rejected⟩
    exact ⟨⟨held.1, held.2, by omega⟩, rejected⟩
  · rintro ⟨admitted, rejected⟩
    have few := admitted.lineFeeds
    exact ⟨admitted.held, ⟨fun large => sized (Or.inr (Or.inl large)), by omega⟩, rejected⟩

/-- Within the bounds a head gets 400 exactly where it breaks the grammar, and
the connection is then closed, if the head is grammatical or if no size check
stops it and the server does not accept it. -/
theorem grammar_kept_iff (head : RequestHead) (sized : ¬ head.Oversized) :
    head.Always (fun _ reply behind final =>
        (reply.decision ≠ .badRequest ↔ head.Grammatical) ∧
          (reply.decision = .badRequest → behind = [] ∧ final.isOpen = false)) ↔
      head.Grammatical ∨ head.Admitted ∧ ¬ head.Accepted := by
  let keeps (reply : Reply) : Prop := reply.decision ≠ .badRequest ↔ head.Grammatical
  have each : head.Always (fun _ reply behind final => keeps reply ∧
      (reply.decision = .badRequest → behind = [] ∧ final.isOpen = false)) ↔ _ :=
    always_iff fun routes reply behind final ends =>
      and_iff_left fun bad => ends (keeps_of_badRequest bad)
  rw [each, ← held_badRequest_iff sized]
  constructor
  · rintro ⟨refusing, answering⟩
    refine or_iff_not_imp_left.mpr fun ungrammatical => ?_
    have held : head.Held := by
      by_contra unheld
      have refused : Reply.refused.decision ≠ .badRequest := by simp [Reply.decision]
      exact ungrammatical ((refusing unheld).mp refused)
    refine ⟨held, ?_⟩
    by_contra other
    exact ungrammatical ((answering (Nat.le_of_lt held.1) held.2).mp other)
  · rintro (grammatical | ⟨held, bad⟩)
    · refine ⟨fun _ => iff_of_true (by simp [Reply.decision]) grammatical, fun _ _ => ?_⟩
      refine iff_of_true (fun bad => ?_) grammatical
      exact ((decideHead_badRequest_iff head).mp bad).2 grammatical.accepted
    · refine ⟨fun unheld => absurd held unheld, fun _ _ => ?_⟩
      have rejected := ((decideHead_badRequest_iff head).mp bad).2
      exact iff_of_false (not_not.mpr bad) fun grammatical => rejected grammatical.accepted

end RequestHead

theorem lone_field_free {field : List Char} (filled : field ≠ []) (foreign : '\r' ∉ field) :
    ∀ other ∈ [field], other ≠ [] ∧ ¬ crlf <:+: other := by
  rw [List.forall_mem_singleton]
  exact ⟨filled, RequestHead.crlf_free_of_not_mem foreign⟩

/-- A head with one header line. -/
def RequestHead.of (line field : List Char) (lineForeign : '\r' ∉ line) (filled : field ≠ [])
    (fieldForeign : '\r' ∉ field) : RequestHead :=
  ⟨line, [field], RequestHead.crlf_free_of_not_mem lineForeign,
    lone_field_free filled fieldForeign⟩

/-- A scrape of the metrics. -/
theorem scrape_free :
    '\r' ∉ "GET /metrics HTTP/1.1".toList ∧ "Host: localhost".toList ≠ [] ∧
      '\r' ∉ "Host: localhost".toList := by decide

def scrapeHead : RequestHead :=
  .of "GET /metrics HTTP/1.1".toList "Host: localhost".toList scrape_free.1 scrape_free.2.1
    scrape_free.2.2

theorem grammar_kept_scrape :
    scrapeHead.Always fun _ reply behind final =>
      (reply.decision ≠ .badRequest ↔ scrapeHead.Grammatical) ∧
        (reply.decision = .badRequest → behind = [] ∧ final.isOpen = false) := by
  have target : IsTarget "/metrics".toList := (targetValid_iff _).mp (by decide +kernel)
  have line : LineForm IsToken scrapeHead.line :=
    ⟨"GET".toList, "/metrics".toList, "HTTP/1.1".toList, by decide +kernel, by decide +kernel,
      target, Or.inr rfl⟩
  have fields : ∀ field ∈ scrapeHead.fields, FieldForm IsToken field := by
    intro field member
    rw [List.mem_singleton.mp member]
    exact ⟨"Host".toList, " localhost".toList, by decide +kernel, by decide +kernel,
      by decide +kernel, by decide +kernel⟩
  exact (RequestHead.grammar_kept_iff scrapeHead (by decide)).mpr (Or.inl ⟨line, fields⟩)

theorem loose_free :
    '\r' ∉ "GET / HTTP/1.1".toList ∧ "bad name: x".toList ≠ [] ∧ '\r' ∉ "bad name: x".toList := by
  decide

/-- A header name with a space in it. -/
def looseHead : RequestHead :=
  .of "GET / HTTP/1.1".toList "bad name: x".toList loose_free.1 loose_free.2.1 loose_free.2.2

/-- The head breaks the grammar and is looked up as if it did not. -/
theorem loose_head_routed :
    ¬ looseHead.Oversized ∧ ¬ looseHead.Grammatical ∧
      ∃ behind final,
        Session [] Connection.fresh looseHead.text (.answered looseHead.text :: behind) final ∧
          decideHead looseHead.text ≠ .badRequest := by
  have sized : ¬ looseHead.Oversized := by decide
  refine ⟨sized, fun grammatical => ?_, ?_⟩
  · have names := ((RequestHead.grammatical_iff looseHead).mp grammatical).2.2
    exact absurd (names _ (List.mem_singleton_self _)) (by decide +kernel)
  · obtain ⟨behind, final, session⟩ :=
      @RequestHead.exists_answer looseHead [] (by decide) (by decide)
    exact ⟨behind, final, session, by decide +kernel⟩

/-! ### Bodies -/

/-- A header name without the blanks around it, in lower case. -/
def bareName (name : List Char) : List Char :=
  ((name.dropWhile fun symbol => symbol = ' ' || symbol = '\t').rdropWhile
    fun symbol => symbol = ' ' || symbol = '\t').map Char.toLower

/-- A header line with a name that is as stated. -/
def FieldNamed (Name : List Char → Prop) (field : List Char) : Prop :=
  ∃ name value, field = name ++ ':' :: value ∧ ':' ∉ name ∧ Name name

/-- The header line of the body length, in any letter case. -/
def IsContentLength (field : List Char) : Prop :=
  FieldNamed (fun name => name.map Char.toLower = "content-length".toList) field

/-- A header line declares a body: `Content-Length` or `Transfer-Encoding`, in
any letter case and with blanks around the name. -/
def DeclaresBody (field : List Char) : Prop :=
  FieldNamed (fun name => bareName name = "content-length".toList ∨
    bareName name = "transfer-encoding".toList) field

theorem fieldForm_iff (field : List Char) :
    FieldForm (fun name => name ≠ []) field ↔
      FieldNamed (fun name => name ≠ []) field ∧ ¬ IsContentLength field := by
  constructor
  · rintro ⟨name, value, shape, free, filled, other⟩
    refine ⟨⟨name, value, shape, free, filled⟩, ?_⟩
    rintro ⟨again, rest, shapeAgain, freeAgain, same⟩
    obtain ⟨rfl, -⟩ := delimited_inj free freeAgain (shape.symm.trans shapeAgain)
    exact other same
  · rintro ⟨⟨name, value, shape, free, filled⟩, other⟩
    exact ⟨name, value, shape, free, filled, fun same => other ⟨name, value, shape, free, same⟩⟩

namespace RequestHead

variable {head : RequestHead}

/-- The request is rejected for good: it is answered with 400, calls no handler
and closes the connection, and nothing behind it is taken for a request. -/
structure Rejected (routes : List Route) (reply : Reply) (behind : List Reply)
    (final : Connection) : Prop where
  badRequest : reply.decision = .badRequest
  uncalled : handlerCalled routes reply.decision = none
  last : behind = []
  closed : final.isOpen = false

theorem not_accepted_iff (head : RequestHead) :
    ¬ head.Accepted ↔ ¬ LineForm (fun method => tokenChars method = true) head.line ∨
      ∃ field ∈ head.fields,
        ¬ FieldNamed (fun name => name ≠ []) field ∨ IsContentLength field := by
  rw [Accepted, not_and_or]
  refine or_congr_right ?_
  push Not
  refine exists_congr fun field => and_congr_right fun _ => ?_
  rw [fieldForm_iff, not_and_or, not_not]

/-- Within the bounds a head is rejected for good exactly where no size check
stops it and the server does not accept it. -/
theorem always_rejected_iff (sized : ¬ head.Oversized) :
    head.Always Rejected ↔ head.Admitted ∧ ¬ head.Accepted := by
  let bad (reply : Reply) : Prop := reply.decision = .badRequest
  have settles (routes : List Route) (reply : Reply) (behind : List Reply) (final : Connection)
      (ends : reply.keeps routes = false → behind = [] ∧ final.isOpen = false) :
      Rejected routes reply behind final ↔ bad reply := by
    refine ⟨Rejected.badRequest, fun known => ?_⟩
    obtain ⟨last, closed⟩ := ends (keeps_of_badRequest known)
    have uncalled : handlerCalled routes reply.decision = none := by
      rw [show reply.decision = .badRequest from known]
      rfl
    exact ⟨known, uncalled, last, closed⟩
  rw [always_iff settles, ← held_badRequest_iff sized]
  constructor
  · rintro ⟨refusing, answering⟩
    have held : head.Held := by
      by_contra unheld
      cases refusing unheld
    exact ⟨held, answering (Nat.le_of_lt held.1) held.2⟩
  · rintro ⟨held, rejected⟩
    exact ⟨fun unheld => absurd held unheld, fun _ _ => rejected⟩

/-- A head that declares a body is rejected for good exactly where no size check
stops it and the declaration is spelled `Content-Length`, or a line of the head
is malformed. -/
theorem body_rejected_iff (head : RequestHead) :
    (¬ head.Oversized ∧ (∃ field ∈ head.fields, DeclaresBody field) → head.Always Rejected) ↔
      (¬ head.Oversized ∧ (∃ field ∈ head.fields, DeclaresBody field) →
        head.Admitted ∧
          (¬ LineForm (fun method => tokenChars method = true) head.line ∨
            ∃ field ∈ head.fields,
              ¬ FieldNamed (fun name => name ≠ []) field ∨ IsContentLength field)) := by
  rw [← not_accepted_iff]
  exact imp_congr_right fun both => always_rejected_iff both.1

end RequestHead

theorem chunked_free :
    '\r' ∉ "POST / HTTP/1.1".toList ∧ "Transfer-Encoding: chunked".toList ≠ [] ∧
      '\r' ∉ "Transfer-Encoding: chunked".toList := by decide

/-- A head that declares a chunked body. -/
def chunkedHead : RequestHead :=
  .of "POST / HTTP/1.1".toList "Transfer-Encoding: chunked".toList chunked_free.1 chunked_free.2.1
    chunked_free.2.2

/-- A body that reads like a request. -/
def requestLikeBody : List Char := "GET /metrics HTTP/1.1\r\n\r\n".toList

/-- The server answers the body as a request of its own. -/
theorem chunked_body_answered :
    ¬ chunkedHead.Oversized ∧ (∃ field ∈ chunkedHead.fields, DeclaresBody field) ∧
      ∃ final, Session [] Connection.fresh (chunkedHead.text ++ requestLikeBody)
        [.answered chunkedHead.text, .answered requestLikeBody] final := by
  refine ⟨by decide, ⟨"Transfer-Encoding: chunked".toList, List.mem_singleton_self _, ?_⟩, ?_⟩
  · exact ⟨"Transfer-Encoding".toList, " chunked".toList, by decide, by decide,
      Or.inr (by decide)⟩
  · have replies : repliesOf [] (chunkedHead.text ++ requestLikeBody) =
        [.answered chunkedHead.text, .answered requestLikeBody] := by decide +kernel
    have still : (receive [] Connection.fresh (chunkedHead.text ++ requestLikeBody)).isOpen =
        true := by decide +kernel
    have session := Session.recv rfl (by decide) (by decide) (Session.ended still)
    rw [List.append_nil, List.append_nil, Connection.fresh, List.nil_append, replies] at session
    exact ⟨_, session⟩

end SafetyCrit.Observability.Http
