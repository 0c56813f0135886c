import SafetyCrit.Observability.HttpSegments

/-!
Owns complete request heads: the decision that the server takes about one, and
the replies that a head can get, wherever it stands in the stream of a
connection and however that stream is cut.

A reply is a decision about the text of a head, or a refusal before the head is
complete. Refusals come from the request line or the buffer alone, so the
lengths of a head tell which of the two replies it can get.
-/

namespace SafetyCrit.Observability.Http

open SafetyCrit.Library.Search

/-! ### Decisions -/

/-- What the server makes of a complete head: 431, 400, or a path to look up. -/
inductive Decision where
  | tooLarge
  | badRequest
  | route (method path : List Char) (keepAlive : Bool)
deriving DecidableEq, Repr

/-- The checks of the request line and the header loop. -/
def decideLines (requestLine region : List Char) : Decision :=
  match find [' '] requestLine, findLast ' ' requestLine with
  | some first, some last =>
      if last = first then .badRequest
      else
        let method := requestLine.take first
        let target := (requestLine.drop (first + 1)).take (last - first - 1)
        let version := requestLine.drop (last + 1)
        if ¬ tokenChars method ∨ ¬ targetValid target ∨
            (version ≠ "HTTP/1.0".toList ∧ version ≠ "HTTP/1.1".toList) then .badRequest
        else match headerLoop region (version = "HTTP/1.1".toList) with
          | none => .badRequest
          | some keepAlive =>
              .route method ((find ['?'] target).elim target target.take) keepAlive
  | _, _ => .badRequest

theorem decideLines_ne_tooLarge (requestLine region : List Char) :
    decideLines requestLine region ≠ .tooLarge := by
  unfold decideLines
  split
  · dsimp only
    split_ifs
    · simp
    · simp
    · split
      · simp
      · simp
  · simp

/-- `service_connection` on a complete head, up to the routes. -/
def decideHead (head : List Char) : Decision :=
  let headEnd := head.length - 4
  let firstCrlf := (find crlf head).getD 0
  let region := (head.take headEnd).drop (firstCrlf + 2)
  if region.length > kMaxHeaderBytes then .tooLarge
  else if region.countP (· = '\n') + 1 > kMaxHeaderLines then .tooLarge
  else decideLines (head.take firstCrlf) region

/-- The response to a decision, and whether the connection then stays open. -/
def respond (routes : List Route) : Decision → Option (List Char) × Bool
  | .tooLarge => (sendSimple 431, false)
  | .badRequest => (sendSimple 400, false)
  | .route method path keepAlive =>
      let sent := sendResponse (routeAnswer routes method path) (method = "HEAD".toList) keepAlive
      (sent, keepAlive && sent.isSome)

/-- The route whose handler is called. -/
def handlerCalled (routes : List Route) : Decision → Option Route
  | .tooLarge => none
  | .badRequest => none
  | .route method path _ =>
      if method ≠ "GET".toList ∧ method ≠ "HEAD".toList then none
      else routes.find? fun route => route.path = path

theorem answer_eq (routes : List Route) (head : List Char) :
    answer routes head = respond routes (decideHead head) := by
  unfold answer decideHead
  dsimp only
  generalize (head.take (head.length - 4)).drop ((find crlf head).getD 0 + 2) = region
  generalize head.take ((find crlf head).getD 0) = requestLine
  by_cases long : region.length > kMaxHeaderBytes
  · rw [if_pos long, if_pos long]
    rfl
  rw [if_neg long, if_neg long]
  by_cases many : region.countP (· = '\n') + 1 > kMaxHeaderLines
  · rw [if_pos many, if_pos many]
    rfl
  rw [if_neg many, if_neg many, decideLines]
  cases find [' '] requestLine with
  | none => rfl
  | some first =>
      cases findLast ' ' requestLine with
      | none => rfl
      | some last =>
          dsimp only
          split_ifs
          · rfl
          · rfl
          · generalize headerLoop region _ = kept
            cases kept with
            | none => rfl
            | some keepAlive => rfl

/-! ### Heads as text -/

/-- A line end is found where a line without one stops. -/
theorem find_crlf_line {line : List Char} (free : ¬ crlf <:+: line) (rest : List Char) :
    find crlf (line ++ crlf ++ rest) = some line.length := by
  rw [List.append_assoc, find_skip fun position below => ?_,
    find_of_prefixed (List.prefix_append _ _), Option.map_some, Nat.zero_add]
  intro starts
  rw [List.drop_append_of_le_length (Nat.le_of_lt below)] at starts
  have inside : (line.drop position).IsSuffix line := List.drop_suffix _ _
  cases shape : line.drop position with
  | nil =>
      have size := congrArg List.length shape
      rw [List.length_drop, List.length_nil] at size
      omega
  | cons symbol tail =>
      rw [shape] at starts inside
      cases tail with
      | nil =>
          -- The line ends in a CR; the symbol behind it is another CR.
          have second := (List.cons_prefix_cons.mp starts).2
          exact absurd (List.cons_prefix_cons.mp second).1 (by decide)
      | cons second tail =>
          have fits : crlf.length ≤ (symbol :: second :: tail).length := by simp [crlf]
          have own := List.prefix_of_prefix_length_le starts (List.prefix_append _ _) fits
          exact free (own.isInfix.trans inside.isInfix)

/-- A request head: the request line and the header lines. -/
structure RequestHead where
  line : List Char
  fields : List (List Char)
  lineFree : ¬ crlf <:+: line
  fieldsFree : ∀ field ∈ fields, field ≠ [] ∧ ¬ crlf <:+: field

namespace RequestHead

variable {head : RequestHead}

/-- The header section. -/
def headerSection (head : RequestHead) : List Char := crlf.intercalate head.fields

/-- The lines of the head, the empty line at its end left out. -/
def lines (head : RequestHead) : List Char := crlf.intercalate (head.line :: head.fields)

/-- The bytes of the head. -/
def text (head : RequestHead) : List Char := head.lines ++ headMark

theorem length_text (head : RequestHead) : head.text.length = head.lines.length + 4 := by
  rw [text, List.length_append]
  rfl

theorem lines_eq (head : RequestHead) : head.fields = [] ∧ head.lines = head.line ∨
    head.lines = head.line ++ crlf ++ head.headerSection := by
  cases shape : head.fields with
  | nil => exact Or.inl ⟨rfl, by rw [lines, shape, List.intercalate_singleton]⟩
  | cons field fields =>
      right
      rw [lines, headerSection, shape, List.intercalate_cons_cons]

theorem find_crlf_text (head : RequestHead) (rest : List Char) :
    find crlf (head.text ++ rest) = some head.line.length := by
  rcases head.lines_eq with ⟨-, alone⟩ | joined
  · have shape : head.text ++ rest = head.line ++ crlf ++ (crlf ++ rest) := by
      rw [text, alone, List.append_assoc, List.append_assoc]
      rfl
    rw [shape, find_crlf_line head.lineFree]
  · have shape : head.text ++ rest =
        head.line ++ crlf ++ (head.headerSection ++ headMark ++ rest) := by
      rw [text, joined]
      simp only [List.append_assoc]
    rw [shape, find_crlf_line head.lineFree]

end RequestHead

/-- The head ends at the first empty line. -/
theorem find_headMark_lines {line : List Char} {fields : List (List Char)}
    (lineFree : ¬ crlf <:+: line)
    (fieldsFree : ∀ field ∈ fields, field ≠ [] ∧ ¬ crlf <:+: field) (rest : List Char) :
    find headMark (crlf.intercalate (line :: fields) ++ headMark ++ rest) =
      some (crlf.intercalate (line :: fields)).length := by
  have starts_crlf {text : List Char} (starts : headMark <+: text) : crlf <+: text :=
    List.IsPrefix.trans ⟨crlf, rfl⟩ starts
  induction fields generalizing line with
  | nil =>
      rw [List.intercalate_singleton, List.append_assoc, find_skip fun position below => ?_,
        find_of_prefixed (List.prefix_append _ _), Option.map_some, Nat.zero_add]
      have stop : find crlf (line ++ (headMark ++ rest)) = some line.length := by
        have found := find_crlf_line lineFree (crlf ++ rest)
        rwa [List.append_assoc] at found
      exact fun starts => not_prefix_before_find stop below (starts_crlf starts)
  | cons field fields inductionHypothesis =>
      rw [List.forall_mem_cons] at fieldsFree
      obtain ⟨⟨filled, fieldFree⟩, othersFree⟩ := fieldsFree
      have later := inductionHypothesis fieldFree othersFree
      rw [List.intercalate_cons_cons]
      generalize known : crlf.intercalate (field :: fields) = joined at later ⊢
      have next : ¬ crlf <+: joined ++ headMark ++ rest := by
        have stop : find crlf (joined ++ headMark ++ rest) = some field.length := by
          cases fields with
          | nil =>
              have found := find_crlf_line fieldFree (crlf ++ rest)
              rw [← known, List.intercalate_singleton, List.append_assoc]
              rwa [List.append_assoc] at found
          | cons other fields =>
              rw [← known, List.intercalate_cons_cons, List.append_assoc, List.append_assoc]
              exact find_crlf_line fieldFree _
        have positive := List.length_pos_of_ne_nil filled
        have first := not_prefix_before_find stop positive
        rwa [List.drop_zero] at first
      have stop := find_crlf_line lineFree (joined ++ headMark ++ rest)
      rw [List.append_assoc, List.append_assoc, ← List.append_assoc joined,
        find_skip fun position below starts => ?_, later, Option.map_some]
      · simp only [List.length_append]
        rw [Nat.add_comm]
      · rw [List.length_append] at below
        have size : crlf.length = 2 := rfl
        have place : position < line.length ∨ position = line.length ∨
            position = line.length + 1 := by omega
        rcases place with inside | rfl | rfl
        · exact not_prefix_before_find stop inside (starts_crlf starts)
        · rw [List.append_assoc, List.drop_left] at starts
          exact next ((List.prefix_append_right_inj crlf).mp starts)
        · have shape : (line ++ crlf ++ (joined ++ headMark ++ rest)).drop (line.length + 1) =
              '\n' :: (joined ++ headMark ++ rest) := by
            rw [List.append_assoc, ← List.drop_drop, List.drop_left]
            rfl
          rw [shape] at starts
          exact absurd (List.cons_prefix_cons.mp starts).1 (by decide)

theorem not_infix_take_of_find {text : List Char} {position : Nat}
    (found : find crlf text = some position) : ¬ crlf <:+: text.take position := by
  intro inside
  cases own : find crlf (text.take position) with
  | none => exact find_eq_none_iff.mp own inside
  | some earlier =>
      have extended : find crlf (text.take position ++ text.drop position) = some earlier :=
        find_append_left own
      rw [List.take_append_drop, found] at extended
      have bound := end_le_of_find own
      have size : crlf.length = 2 := rfl
      rw [List.length_take] at bound
      cases extended
      omega

/-- The bytes up to the first empty line are lines; the text in front of them
being a line as well, none of them but the first can be empty. -/
theorem lines_of_find {stream : List Char} {headEnd : Nat}
    (found : find headMark stream = some headEnd) :
    ∃ line fields, ¬ crlf <:+: line ∧ (∀ field ∈ fields, field ≠ [] ∧ ¬ crlf <:+: field) ∧
      stream.take headEnd = crlf.intercalate (line :: fields) ∧
      (¬ crlf <+: stream → line ≠ []) := by
  induction headEnd using Nat.strong_induction_on generalizing stream with
  | h headEnd inductionHypothesis =>
  have lineSize : crlf.length = 2 := rfl
  have markSize : headMark.length = 4 := rfl
  have starts : headMark <+: stream.drop headEnd := prefix_of_find found
  have fits := end_le_of_find found
  cases stop : find crlf stream with
  | none =>
      have inside := (List.IsPrefix.trans ⟨crlf, rfl⟩ starts : crlf <+: stream.drop headEnd)
      exact absurd (inside.isInfix.trans (List.drop_suffix _ _).isInfix) (find_eq_none_iff.mp stop)
  | some place =>
      have free := not_infix_take_of_find stop
      have before : place ≤ headEnd := by
        by_contra later
        exact not_prefix_before_find stop (by omega) (List.IsPrefix.trans ⟨crlf, rfl⟩ starts)
      have filled (unstarted : ¬ crlf <+: stream) : stream.take place ≠ [] := by
        intro empty
        have zero : place = 0 := by
          have size := congrArg List.length empty
          rw [List.length_take, List.length_nil] at size
          omega
        subst zero
        exact unstarted (prefix_of_find stop)
      rcases Nat.eq_or_lt_of_le before with rfl | earlier
      · exact ⟨stream.take place, [], free, by simp, by simp, filled⟩
      · have cut : stream.drop place = crlf ++ stream.drop (place + 2) := by
          obtain ⟨rest, equal⟩ := prefix_of_find stop
          rw [← List.drop_drop, ← equal]
          rfl
        -- No mark starts at the line end, neither at its CR nor at its LF.
        have apart : ¬ crlf <+: stream.drop (place + 2) := by
          rintro ⟨rest, equal⟩
          refine not_prefix_before_find found earlier ?_
          rw [cut, ← equal]
          exact ⟨rest, rfl⟩
        have far : place + 2 ≤ headEnd := by
          by_contra near
          have next : headEnd = place + 1 := by omega
          rw [next, ← List.drop_drop, cut] at starts
          exact absurd (List.cons_prefix_cons.mp starts).1 (by decide)
        have shifted : find headMark (stream.take (place + 2) ++ stream.drop (place + 2)) =
            (find headMark (stream.drop (place + 2))).map
              (· + (stream.take (place + 2)).length) := by
          refine find_skip fun position below => ?_
          rw [List.length_take] at below
          rw [List.take_append_drop]
          exact not_prefix_before_find found (by omega)
        rw [List.take_append_drop, found, List.length_take,
          Nat.min_eq_left (by omega)] at shifted
        obtain ⟨rest, foundRest, total⟩ := Option.map_eq_some_iff.mp shifted.symm
        obtain ⟨line, fields, lineFree, fieldsFree, joined, nonempty⟩ :=
          inductionHypothesis rest (by omega) foundRest
        refine ⟨stream.take place, line :: fields, free, ?_, ?_, filled⟩
        · rw [List.forall_mem_cons]
          exact ⟨⟨nonempty apart, lineFree⟩, fieldsFree⟩
        · rw [List.intercalate_cons_cons, ← joined, ← total, Nat.add_comm rest, List.take_add,
            List.take_add, cut]
          rfl

/-- Every complete head in a stream is a request head. -/
theorem exists_requestHead {stream : List Char} {headEnd : Nat}
    (found : find headMark stream = some headEnd) :
    ∃ head : RequestHead, head.text = stream.take (headEnd + 4) := by
  obtain ⟨line, fields, lineFree, fieldsFree, joined, -⟩ := lines_of_find found
  refine ⟨⟨line, fields, lineFree, fieldsFree⟩, ?_⟩
  obtain ⟨rest, equal⟩ := prefix_of_find found
  rw [RequestHead.text, RequestHead.lines, ← joined, List.take_add, ← equal]
  rfl

/-! ### Verdicts on heads -/

namespace RequestHead

variable {head : RequestHead}

theorem find_headMark_text (head : RequestHead) (rest : List Char) :
    find headMark (head.text ++ rest) = some head.lines.length :=
  find_headMark_lines head.lineFree head.fieldsFree rest

theorem length_line_le (head : RequestHead) : head.line.length ≤ head.lines.length := by
  rcases head.lines_eq with ⟨-, alone⟩ | joined
  · rw [alone]
  · rw [joined, List.append_assoc, List.length_append]
    exact Nat.le_add_right _ _

theorem settled_text (head : RequestHead) (rest : List Char) :
    settled (head.text ++ rest) =
      if head.line.length ≤ kMaxRequestLineBytes ∧ head.text.length ≤ kHeadCapacity then
        .serve head.text
      else .refuse := by
  have stop := head.find_crlf_text rest
  have mark := head.find_headMark_text rest
  have size := head.length_text
  have markSize : headMark.length = 4 := rfl
  have lineSize : crlf.length = 2 := rfl
  have larger : kMaxRequestLineBytes < kHeadCapacity := by decide
  by_cases fits : head.text.length ≤ kHeadCapacity
  · have inside := head.length_line_le
    rw [settled, judge, find_take stop (by omega), find_take mark (by omega)]
    dsimp only
    rw [List.take_take, Nat.min_eq_left (by omega : head.lines.length + 4 ≤ kHeadCapacity), ← size,
      List.take_left]
    by_cases long : head.line.length > kMaxRequestLineBytes
    · rw [if_pos long, if_neg (by omega)]
    · rw [if_neg long, if_pos ⟨by omega, fits⟩]
  · have full : ((head.text ++ rest).take kHeadCapacity).length = kHeadCapacity := by
      rw [List.length_take, List.length_append]
      omega
    have absent : find headMark ((head.text ++ rest).take kHeadCapacity) = none := by
      cases own : find headMark ((head.text ++ rest).take kHeadCapacity) with
      | none => rfl
      | some position =>
          have extended : find headMark ((head.text ++ rest).take kHeadCapacity ++
              (head.text ++ rest).drop kHeadCapacity) = some position := find_append_left own
          rw [List.take_append_drop, mark] at extended
          have bound := end_le_of_find own
          cases extended
          omega
    rw [if_neg fun both => fits both.2, settled, judge, absent]
    cases find crlf ((head.text ++ rest).take kHeadCapacity) with
    | none => exact if_pos (by omega)
    | some firstCrlf =>
        dsimp only
        split_ifs with long room
        · rfl
        · rfl
        · omega

/-- The decision about a head, in terms of its parts. -/
theorem decideHead_text (head : RequestHead) :
    decideHead head.text =
      if head.headerSection.length > kMaxHeaderBytes ∨
          head.headerSection.countP (· = '\n') + 1 > kMaxHeaderLines then .tooLarge
      else decideLines head.line head.headerSection := by
  have stop := head.find_crlf_text []
  have inside := head.length_line_le
  rw [List.append_nil] at stop
  have front : head.text.take (head.text.length - 4) = head.lines := by
    rw [length_text, Nat.add_sub_cancel, text, List.take_left]
  have region : head.lines.drop (head.line.length + 2) = head.headerSection := by
    rcases head.lines_eq with ⟨empty, alone⟩ | joined
    · rw [alone, headerSection, empty, List.intercalate_nil]
      exact List.drop_eq_nil_of_le (Nat.le_add_right _ _)
    · rw [joined]
      exact List.drop_left' (List.length_append)
  have line : head.text.take head.line.length = head.line := by
    rcases head.lines_eq with ⟨-, alone⟩ | joined
    · rw [text, alone, List.take_left]
    · rw [text, joined, List.append_assoc, List.append_assoc, List.take_left]
  unfold decideHead
  dsimp only
  rw [stop, Option.getD_some, front, region, line]
  by_cases long : head.headerSection.length > kMaxHeaderBytes
  · rw [if_pos long, if_pos (Or.inl long)]
  rw [if_neg long]
  by_cases many : head.headerSection.countP (· = '\n') + 1 > kMaxHeaderLines
  · rw [if_pos many, if_pos (Or.inr many)]
  · rw [if_neg many, if_neg (not_or.mpr ⟨long, many⟩)]

theorem fullLine_text_iff (head : RequestHead) (rest : List Char) :
    FullLine (head.text ++ rest) ↔ head.line.length = kMaxRequestLineBytes := by
  rw [FullLine, head.find_crlf_text, Option.some.injEq]

/-- The head passes the checks of the request line and the buffer, however it is
cut. -/
def Held (head : RequestHead) : Prop :=
  head.line.length < kMaxRequestLineBytes ∧ head.text.length ≤ kHeadCapacity

end RequestHead

/-! ### Replies to heads -/

/-- The decision of a reply. -/
def Reply.decision : Reply → Decision
  | .refused => .tooLarge
  | .answered head => decideHead head

/-- The bytes of the head that a reply is about, as far as the server has taken
them from the stream. -/
def Reply.length : Reply → Nat
  | .refused => 0
  | .answered head => head.length

/-- The connection stays open behind the reply. -/
def Reply.keeps (routes : List Route) (reply : Reply) : Bool :=
  (respond routes reply.decision).1.isSome && (respond routes reply.decision).2

theorem keeps_of_tooLarge {routes : List Route} {reply : Reply}
    (tooLarge : reply.decision = .tooLarge) : reply.keeps routes = false := by
  rw [Reply.keeps, tooLarge]
  exact Bool.and_false _

theorem keeps_of_badRequest {routes : List Route} {reply : Reply}
    (badRequest : reply.decision = .badRequest) : reply.keeps routes = false := by
  rw [Reply.keeps, badRequest]
  exact Bool.and_false _

/-- Where the request behind some replies begins. -/
def consumed (replies : List Reply) : Nat := (replies.map Reply.length).sum

section Replies

variable {routes : List Route} {stream : List Char} {outcome : Outcome} {head : RequestHead}

/-- The course behind a reply that keeps the connection open. -/
theorem Course.behind_reply {reply : Reply} {later : List Reply}
    (course : Course routes stream (reply :: later) outcome) (keeps : reply.keeps routes = true) :
    ∃ rest, Course routes (stream.drop reply.length) later rest ∧
      rest.closedAt.isSome = outcome.closedAt.isSome := by
  cases course with
  | refused _ =>
      rw [keeps_of_tooLarge rfl] at keeps
      cases keeps
  | cut _ =>
      rw [keeps_of_tooLarge rfl] at keeps
      cases keeps
  | unsent _ answered =>
      rw [Reply.keeps, Reply.decision, ← answer_eq, answered] at keeps
      cases keeps
  | closes _ answered =>
      rw [Reply.keeps, Reply.decision, ← answer_eq, answered] at keeps
      cases keeps
  | continues _ _ later => exact ⟨_, later, Option.isSome_map.symm⟩

theorem Course.behind {before later : List Reply}
    (course : Course routes stream (before ++ later) outcome)
    (kept : ∀ earlier ∈ before, earlier.keeps routes = true) :
    ∃ rest, Course routes (stream.drop (consumed before)) later rest ∧
      rest.closedAt.isSome = outcome.closedAt.isSome := by
  induction before generalizing stream outcome with
  | nil => exact ⟨outcome, course, rfl⟩
  | cons earlier before inductionHypothesis =>
      rw [List.forall_mem_cons] at kept
      obtain ⟨next, course, same⟩ := Course.behind_reply course kept.1
      obtain ⟨rest, course, still⟩ := inductionHypothesis course kept.2
      rw [List.drop_drop] at course
      exact ⟨rest, course, still.trans same⟩

/-- An outcome that is the refusal comes from one. -/
theorem Course.of_refusal {replies : List Reply} (course : Course routes stream replies outcome)
    (refused : outcome = refusal) : replies = [.refused] := by
  have positive {own : List Char} (serves : settled stream = .serve own) : 0 < own.length :=
    (length_head_pos serves).1
  cases course with
  | waits _ => cases congrArg Outcome.closedAt refused
  | refused _ => rfl
  | cut _ => rfl
  | unsent _ _ => exact absurd (congrArg Outcome.sent refused).symm refusal_sent
  | closes serves _ =>
      have place := Option.some.inj (congrArg Outcome.closedAt refused)
      have some := positive serves
      omega
  | continues serves _ _ => exact absurd refused (after_ne_refusal (positive serves) _)

/-- The reply to a head: a refusal, or the decision about its text. A reply that
does not keep the connection open is the last one. -/
theorem Course.reply_text {rest : List Char} {replies : List Reply}
    (course : Course routes (head.text ++ rest) replies outcome) :
    ∃ reply behind, replies = reply :: behind ∧
      (reply = .refused ∧ ¬ head.Held ∨ reply = .answered head.text ∧
        head.line.length ≤ kMaxRequestLineBytes ∧ head.text.length ≤ kHeadCapacity) ∧
      (reply.keeps routes = false → behind = [] ∧ outcome.closedAt.isSome = true) := by
  have verdict := head.settled_text rest
  have served {own : List Char} (serves : settled (head.text ++ rest) = .serve own) :
      Reply.answered own = .answered head.text ∧
        head.line.length ≤ kMaxRequestLineBytes ∧ head.text.length ≤ kHeadCapacity := by
    rw [verdict] at serves
    split_ifs at serves with both
    cases serves
    exact ⟨rfl, both⟩
  cases course with
  | waits waiting =>
      rw [verdict] at waiting
      split_ifs at waiting
  | refused refuses =>
      refine ⟨_, _, rfl, Or.inl ⟨rfl, fun held => ?_⟩, fun _ => ⟨rfl, rfl⟩⟩
      rw [verdict, if_pos ⟨Nat.le_of_lt held.1, held.2⟩] at refuses
      cases refuses
  | cut full =>
      have line := (head.fullLine_text_iff rest).mp full
      exact ⟨_, _, rfl, Or.inl ⟨rfl, fun held => absurd held.1 (by omega)⟩, fun _ => ⟨rfl, rfl⟩⟩
  | unsent serves _ => exact ⟨_, _, rfl, Or.inr (served serves), fun _ => ⟨rfl, rfl⟩⟩
  | closes serves _ => exact ⟨_, _, rfl, Or.inr (served serves), fun _ => ⟨rfl, rfl⟩⟩
  | continues serves answered _ =>
      refine ⟨_, _, rfl, Or.inr (served serves), fun ends => ?_⟩
      rw [Reply.keeps, Reply.decision, ← answer_eq, answered] at ends
      cases ends

/-- A head that the checks do not always pass is refused in some session. -/
theorem exists_refusal (routes : List Route) (unheld : ¬ head.Held) :
    ∃ final, Session routes Connection.fresh head.text [.refused] final := by
  have possible : Possible routes head.text refusal := by
    have verdict := head.settled_text []
    rw [List.append_nil] at verdict
    by_cases both : head.line.length ≤ kMaxRequestLineBytes ∧ head.text.length ≤ kHeadCapacity
    · have full := (head.fullLine_text_iff []).mpr (by rw [RequestHead.Held] at unheld; omega)
      rw [List.append_nil] at full
      exact .cut full
    · rw [if_neg both] at verdict
      exact .refused verdict
  obtain ⟨final, delivers, reached⟩ := delivers_fresh_iff.mpr possible
  obtain ⟨replies, session⟩ := delivers.session
  obtain ⟨outcome, course, same⟩ := course_of_session session rfl rfl (Nat.zero_le _)
  rw [reached, Connection.fresh, Outcome.after_nil] at same
  rw [course.of_refusal same.symm] at session
  exact ⟨final, session⟩

end Replies

end SafetyCrit.Observability.Http
