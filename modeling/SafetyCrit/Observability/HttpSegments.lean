import SafetyCrit.Observability.HttpServer

/-!
Owns how the responses on one connection depend on the way its stream is cut
into `recv` calls.

What a buffer calls for is decided by a prefix: more bytes behind it do not
change a verdict. The one exception is a request line of exactly 512 bytes whose
CR and LF come in two calls; the server then sees 513 bytes without a line end
and refuses the request.
-/

namespace SafetyCrit.Observability.Http

open SafetyCrit.Library.Search

/-! ### Verdicts on prefixes -/

/-- Everything a buffer can call for. -/
theorem judge_cases (buf : List Char) :
    (find crlf buf = none ∧
      ((buf.length ≤ kMaxRequestLineBytes ∧ judge buf = .wait) ∨
        (kMaxRequestLineBytes < buf.length ∧ judge buf = .refuse))) ∨
    ∃ firstCrlf, find crlf buf = some firstCrlf ∧
      ((kMaxRequestLineBytes < firstCrlf ∧ judge buf = .refuse) ∨
        (firstCrlf ≤ kMaxRequestLineBytes ∧ find headMark buf = none ∧
          ((buf.length < kHeadCapacity ∧ judge buf = .wait) ∨
            (kHeadCapacity ≤ buf.length ∧ judge buf = .refuse))) ∨
        (firstCrlf ≤ kMaxRequestLineBytes ∧ ∃ headEnd, find headMark buf = some headEnd ∧
          judge buf = .serve (buf.take (headEnd + 4)))) := by
  unfold judge
  cases line : find crlf buf with
  | none =>
      left
      refine ⟨rfl, ?_⟩
      by_cases long : buf.length > kMaxRequestLineBytes
      · exact Or.inr ⟨long, if_pos long⟩
      · exact Or.inl ⟨by omega, if_neg long⟩
  | some firstCrlf =>
      right
      refine ⟨firstCrlf, rfl, ?_⟩
      by_cases long : firstCrlf > kMaxRequestLineBytes
      · exact Or.inl ⟨long, if_pos long⟩
      · dsimp only
        rw [if_neg long]
        cases mark : find headMark buf with
        | none =>
            right
            left
            refine ⟨by omega, rfl, ?_⟩
            by_cases full : buf.length ≥ kHeadCapacity
            · exact Or.inr ⟨full, if_pos full⟩
            · exact Or.inl ⟨by omega, if_neg full⟩
        | some headEnd => exact Or.inr (Or.inr ⟨by omega, headEnd, rfl, rfl⟩)

/-- A request line of exactly 512 bytes. -/
def FullLine (stream : List Char) : Prop := find crlf stream = some kMaxRequestLineBytes

instance (stream : List Char) : Decidable (FullLine stream) :=
  inferInstanceAs (Decidable (_ = _))

/-- The verdict once the buffer is full or the stream is over. -/
def settled (stream : List Char) : Verdict := judge (stream.take kHeadCapacity)

section Prefix

variable {buf more stream : List Char}

theorem judge_serve {head : List Char} (served : judge buf = .serve head) :
    ∃ firstCrlf headEnd, find crlf buf = some firstCrlf ∧ firstCrlf ≤ kMaxRequestLineBytes ∧
      find headMark buf = some headEnd ∧ head = buf.take (headEnd + 4) := by
  rcases judge_cases buf with ⟨-, ⟨-, taken⟩ | ⟨-, taken⟩⟩ | ⟨firstCrlf, line, ⟨-, taken⟩ |
    ⟨-, -, ⟨-, taken⟩ | ⟨-, taken⟩⟩ | ⟨short, headEnd, mark, taken⟩⟩
  · cases served.symm.trans taken
  · cases served.symm.trans taken
  · cases served.symm.trans taken
  · cases served.symm.trans taken
  · cases served.symm.trans taken
  · cases served.symm.trans taken
    exact ⟨firstCrlf, headEnd, line, short, mark, rfl⟩

theorem judge_append_of_serve {head : List Char} (served : judge buf = .serve head)
    (more : List Char) : judge (buf ++ more) = .serve head := by
  obtain ⟨firstCrlf, headEnd, line, short, mark, rfl⟩ := judge_serve served
  have fits := end_le_of_find mark
  have size : headMark.length = 4 := rfl
  unfold judge
  rw [find_append_left line, find_append_left mark]
  dsimp only
  rw [if_neg (by omega), List.take_append_of_le_length (by omega)]

/-- A refusal stays one when more bytes come, unless they complete the end of a
request line of exactly 512 bytes. -/
theorem judge_append_of_refuse (refused : judge buf = .refuse)
    (within : (buf ++ more).length ≤ kHeadCapacity) :
    judge (buf ++ more) = .refuse ∨ FullLine (buf ++ more) := by
  rcases judge_cases buf with ⟨open', ⟨-, taken⟩ | ⟨long, -⟩⟩ | ⟨firstCrlf, line, ⟨long, -⟩ |
    ⟨-, -, ⟨-, taken⟩ | ⟨full, -⟩⟩ | ⟨-, headEnd, -, taken⟩⟩
  · cases refused.symm.trans taken
  · -- The line end, if it comes, lies behind the buffer, so behind 512 bytes or at them.
    have longer : kMaxRequestLineBytes < (buf ++ more).length := by
      rw [List.length_append]
      omega
    cases line : find crlf (buf ++ more) with
    | none =>
        left
        unfold judge
        rw [line]
        exact if_pos longer
    | some firstCrlf =>
        have behind := length_lt_of_find_append open' line
        have size : crlf.length = 2 := rfl
        by_cases far : firstCrlf > kMaxRequestLineBytes
        · left
          unfold judge
          rw [line]
          exact if_pos far
        · right
          have exactly : firstCrlf = kMaxRequestLineBytes := by omega
          rw [FullLine, line, exactly]
  · left
    unfold judge
    rw [find_append_left line]
    exact if_pos long
  · cases refused.symm.trans taken
  · have nothing : more = [] := by
      rw [List.length_append] at within
      exact List.length_eq_zero_iff.mp (by omega)
    rw [nothing, List.append_nil]
    exact Or.inl refused
  · cases refused.symm.trans taken

/-- A complete head alone is complete. -/
theorem judge_head {head : List Char} (served : judge buf = .serve head) :
    judge head = .serve head := by
  obtain ⟨firstCrlf, headEnd, line, short, mark, rfl⟩ := judge_serve served
  have lineSize : crlf.length = 2 := rfl
  have markSize : headMark.length = 4 := rfl
  have order : firstCrlf ≤ headEnd := by
    by_contra later
    refine not_prefix_before_find line (by omega : headEnd < firstCrlf) ?_
    exact List.IsPrefix.trans ⟨crlf, rfl⟩ (prefix_of_find mark)
  unfold judge
  rw [find_take line (by omega), find_take mark (by omega)]
  dsimp only
  rw [if_neg (by omega), List.take_take, Nat.min_self]

theorem settled_append (within : buf.length ≤ kHeadCapacity) (rest : List Char) :
    settled (buf ++ rest) = judge (buf ++ rest.take (kHeadCapacity - buf.length)) := by
  rw [settled, List.take_append, List.take_of_length_le within]

end Prefix

/-! ### Outcomes -/

/-- What the peer has seen: the responses, and for a closed connection how much
of the stream had been answered when it was closed. A complete head is answered,
with 431 too; one that is refused before it is complete is not. -/
structure Outcome where
  sent : List (List Char)
  closedAt : Option Nat
deriving DecidableEq, Repr

def Connection.outcome (conn : Connection) : Outcome :=
  ⟨conn.sent, if conn.isOpen then none else some conn.consumed⟩

/-- An outcome behind requests answered before. -/
def Outcome.after (sent : List (List Char)) (consumed : Nat) (outcome : Outcome) : Outcome :=
  ⟨sent ++ outcome.sent, outcome.closedAt.map (consumed + ·)⟩

/-- The refusal with 431. -/
def refusal : Outcome := ⟨(sendSimple 431).toList, some 0⟩

/-- A stream received piece by piece: each `recv` gets some bytes, at most as
many as the buffer has room for, until the stream is over or the connection
closed. -/
inductive Delivers (routes : List Route) : Connection → List Char → Connection → Prop where
  | ended {conn : Connection} (isOpen : conn.isOpen = true) : Delivers routes conn [] conn
  | closed {conn : Connection} (isClosed : conn.isOpen = false) (rest : List Char) :
      Delivers routes conn rest conn
  | recv {conn final : Connection} {chunk rest : List Char} (isOpen : conn.isOpen = true)
      (nonempty : chunk ≠ []) (fits : conn.buf.length + chunk.length ≤ kHeadCapacity)
      (later : Delivers routes (receive routes conn chunk) rest final) :
      Delivers routes conn (chunk ++ rest) final

/-- What a stream can lead to, request by request. -/
inductive Possible (routes : List Route) : List Char → Outcome → Prop where
  | waits {stream : List Char} (verdict : settled stream = .wait) :
      Possible routes stream ⟨[], none⟩
  | refused {stream : List Char} (verdict : settled stream = .refuse) :
      Possible routes stream refusal
  | cut {stream : List Char} (full : FullLine stream) : Possible routes stream refusal
  | unsent {stream head : List Char} {keepAlive : Bool} (verdict : settled stream = .serve head)
      (answered : answer routes head = (none, keepAlive)) :
      Possible routes stream ⟨[], some 0⟩
  | closes {stream head bytes : List Char} (verdict : settled stream = .serve head)
      (answered : answer routes head = (some bytes, false)) :
      Possible routes stream ⟨[bytes], some head.length⟩
  | continues {stream head bytes : List Char} {outcome : Outcome}
      (verdict : settled stream = .serve head)
      (answered : answer routes head = (some bytes, true))
      (later : Possible routes (stream.drop head.length) outcome) :
      Possible routes stream (outcome.after [bytes] head.length)

/-- How the server replies to a request: with 431 before its head is complete, or
with the answer to the head. -/
inductive Reply where
  | refused
  | answered (head : List Char)
deriving DecidableEq, Repr

/-- The replies of a service call to the requests in the buffer, one for each
pass of its loop that does not wait for bytes. -/
def repliesOf (routes : List Route) (buf : List Char) : List Reply :=
  match _judged : judge buf with
  | .wait => []
  | .refuse => [.refused]
  | .serve head =>
      if (answer routes head).1.isSome && (answer routes head).2 then
        .answered head :: repliesOf routes (buf.drop head.length)
      else [.answered head]
termination_by buf.length
decreasing_by
  obtain ⟨positive, starts⟩ := length_head_pos _judged
  have fits := starts.length_le
  rw [List.length_drop]
  omega

/-- A delivery with the replies it leads to. -/
inductive Session (routes : List Route) :
    Connection → List Char → List Reply → Connection → Prop where
  | ended {conn : Connection} (isOpen : conn.isOpen = true) : Session routes conn [] [] conn
  | closed {conn : Connection} (isClosed : conn.isOpen = false) (rest : List Char) :
      Session routes conn rest [] conn
  | recv {conn final : Connection} {chunk rest : List Char} {replies : List Reply}
      (isOpen : conn.isOpen = true) (nonempty : chunk ≠ [])
      (fits : conn.buf.length + chunk.length ≤ kHeadCapacity)
      (later : Session routes (receive routes conn chunk) rest replies final) :
      Session routes conn (chunk ++ rest)
        (repliesOf routes (conn.buf ++ chunk) ++ replies) final

/-- What a stream can lead to, with the replies. -/
inductive Course (routes : List Route) : List Char → List Reply → Outcome → Prop where
  | waits {stream : List Char} (verdict : settled stream = .wait) :
      Course routes stream [] ⟨[], none⟩
  | refused {stream : List Char} (verdict : settled stream = .refuse) :
      Course routes stream [.refused] refusal
  | cut {stream : List Char} (full : FullLine stream) : Course routes stream [.refused] refusal
  | unsent {stream head : List Char} {keepAlive : Bool} (verdict : settled stream = .serve head)
      (answered : answer routes head = (none, keepAlive)) :
      Course routes stream [.answered head] ⟨[], some 0⟩
  | closes {stream head bytes : List Char} (verdict : settled stream = .serve head)
      (answered : answer routes head = (some bytes, false)) :
      Course routes stream [.answered head] ⟨[bytes], some head.length⟩
  | continues {stream head bytes : List Char} {replies : List Reply} {outcome : Outcome}
      (verdict : settled stream = .serve head)
      (answered : answer routes head = (some bytes, true))
      (later : Course routes (stream.drop head.length) replies outcome) :
      Course routes stream (.answered head :: replies) (outcome.after [bytes] head.length)

theorem Course.possible {routes : List Route} {stream : List Char} {replies : List Reply}
    {outcome : Outcome} (course : Course routes stream replies outcome) :
    Possible routes stream outcome := by
  induction course with
  | waits verdict => exact .waits verdict
  | refused verdict => exact .refused verdict
  | cut full => exact .cut full
  | unsent verdict answered => exact .unsent verdict answered
  | closes verdict answered => exact .closes verdict answered
  | continues verdict answered _ inductionHypothesis =>
      exact .continues verdict answered inductionHypothesis

theorem Session.delivers {routes : List Route} {conn final : Connection} {stream : List Char}
    {replies : List Reply} (session : Session routes conn stream replies final) :
    Delivers routes conn stream final := by
  induction session with
  | ended isOpen => exact .ended isOpen
  | closed isClosed rest => exact .closed isClosed rest
  | recv isOpen nonempty fits _ inductionHypothesis =>
      exact .recv isOpen nonempty fits inductionHypothesis

theorem Delivers.session {routes : List Route} {conn final : Connection} {stream : List Char}
    (delivers : Delivers routes conn stream final) :
    ∃ replies, Session routes conn stream replies final := by
  induction delivers with
  | ended isOpen => exact ⟨[], .ended isOpen⟩
  | closed isClosed rest => exact ⟨[], .closed isClosed rest⟩
  | recv isOpen nonempty fits _ inductionHypothesis =>
      obtain ⟨replies, session⟩ := inductionHypothesis
      exact ⟨_, .recv isOpen nonempty fits session⟩

/-! ### Every delivery is possible -/

section Service

variable {routes : List Route} {conn : Connection}

theorem service_wait (verdict : judge conn.buf = .wait) : serviceConnection routes conn = conn := by
  rw [serviceConnection]
  split
  · rfl
  · next other => cases other.symm.trans verdict
  · next other => cases other.symm.trans verdict

theorem service_refuse (verdict : judge conn.buf = .refuse) :
    serviceConnection routes conn =
      { conn with sent := conn.sent ++ (sendSimple 431).toList, isOpen := false } := by
  rw [serviceConnection]
  split
  · next other => cases other.symm.trans verdict
  · rfl
  · next other => cases other.symm.trans verdict

/-- The connection behind an answered head. -/
def Connection.answered (conn : Connection) (head bytes : List Char) : Connection :=
  { conn with
    buf := conn.buf.drop head.length
    consumed := conn.consumed + head.length
    sent := conn.sent ++ [bytes] }

theorem service_unsent {head : List Char} {keepAlive : Bool}
    (verdict : judge conn.buf = .serve head)
    (answered : answer routes head = (none, keepAlive)) :
    serviceConnection routes conn = { conn with isOpen := false } := by
  rw [serviceConnection]
  split
  · next other => cases other.symm.trans verdict
  · next other => cases other.symm.trans verdict
  · next other =>
    cases other.symm.trans verdict
    rw [answered]

theorem service_closes {head bytes : List Char} (verdict : judge conn.buf = .serve head)
    (answered : answer routes head = (some bytes, false)) :
    serviceConnection routes conn = { conn.answered head bytes with isOpen := false } := by
  rw [serviceConnection]
  split
  · next other => cases other.symm.trans verdict
  · next other => cases other.symm.trans verdict
  · next other =>
    cases other.symm.trans verdict
    rw [answered]
    rfl

/-- An empty buffer ends the loop; servicing it once more would change
nothing. -/
theorem service_continues {head bytes : List Char} (verdict : judge conn.buf = .serve head)
    (answered : answer routes head = (some bytes, true)) :
    serviceConnection routes conn = serviceConnection routes (conn.answered head bytes) := by
  rw [serviceConnection]
  split
  · next other => cases other.symm.trans verdict
  · next other => cases other.symm.trans verdict
  · next other =>
    cases other.symm.trans verdict
    rw [answered]
    dsimp only
    rw [if_neg (by simp)]
    by_cases empty : conn.buf.drop head.length = []
    · rw [if_pos empty, service_wait]
      · rfl
      · change judge (conn.buf.drop head.length) = _
        rw [empty]
        rfl
    · rw [if_neg empty]
      rfl

theorem replies_wait {buf : List Char} (verdict : judge buf = .wait) :
    repliesOf routes buf = [] := by
  rw [repliesOf]
  split
  · rfl
  · next other => cases other.symm.trans verdict
  · next other => cases other.symm.trans verdict

theorem replies_refuse {buf : List Char} (verdict : judge buf = .refuse) :
    repliesOf routes buf = [.refused] := by
  rw [repliesOf]
  split
  · next other => cases other.symm.trans verdict
  · rfl
  · next other => cases other.symm.trans verdict

theorem replies_serve {buf head : List Char} (verdict : judge buf = .serve head) :
    repliesOf routes buf =
      if (answer routes head).1.isSome && (answer routes head).2 then
        .answered head :: repliesOf routes (buf.drop head.length)
      else [.answered head] := by
  rw [repliesOf]
  split
  · next other => cases other.symm.trans verdict
  · next other => cases other.symm.trans verdict
  · next other =>
    cases other.symm.trans verdict
    rfl

theorem Outcome.after_after (first second : List (List Char)) (before between : Nat)
    (outcome : Outcome) :
    (outcome.after second between).after first before =
      outcome.after (first ++ second) (before + between) := by
  obtain ⟨sent, closedAt⟩ := outcome
  cases closedAt with
  | none => simp [Outcome.after]
  | some offset => simp [Outcome.after, Nat.add_assoc]

/-- Where a service call leaves a connection: open with a buffer that calls for
more bytes, or closed. -/
theorem service_course (within : conn.buf.length ≤ kHeadCapacity) (isOpen : conn.isOpen = true)
    (rest : List Char) :
    ((serviceConnection routes conn).isOpen = true ∧
      judge (serviceConnection routes conn).buf = .wait ∧
      (serviceConnection routes conn).buf.length ≤ conn.buf.length ∧
      ∀ replies outcome,
        Course routes ((serviceConnection routes conn).buf ++ rest) replies outcome →
        ∃ whole, Course routes (conn.buf ++ rest) (repliesOf routes conn.buf ++ replies) whole ∧
          outcome.after (serviceConnection routes conn).sent
            (serviceConnection routes conn).consumed = whole.after conn.sent conn.consumed) ∨
    ((serviceConnection routes conn).isOpen = false ∧
      ∃ whole, Course routes (conn.buf ++ rest) (repliesOf routes conn.buf) whole ∧
        (serviceConnection routes conn).outcome = whole.after conn.sent conn.consumed) := by
  induction size : conn.buf.length using Nat.strong_induction_on generalizing conn with
  | h size inductionHypothesis =>
  subst size
  have extended := settled_append within rest
  cases verdict : judge conn.buf with
  | wait =>
      rw [service_wait verdict, replies_wait verdict]
      exact Or.inl ⟨isOpen, verdict, le_rfl, fun _ outcome course => ⟨outcome, course, rfl⟩⟩
  | refuse =>
      right
      rw [service_refuse verdict, replies_refuse verdict]
      refine ⟨rfl, refusal, ?_, by simp [Connection.outcome, Outcome.after, refusal]⟩
      have short : (conn.buf ++ rest.take (kHeadCapacity - conn.buf.length)).length ≤
          kHeadCapacity := by
        rw [List.length_append, List.length_take]
        omega
      rcases judge_append_of_refuse verdict short with refused | full
      · exact .refused (extended.trans refused)
      · refine .cut ?_
        have whole : find crlf (conn.buf ++ rest.take (kHeadCapacity - conn.buf.length) ++
            rest.drop (kHeadCapacity - conn.buf.length)) = some kMaxRequestLineBytes :=
          find_append_left full
        rwa [List.append_assoc, List.take_append_drop] at whole
  | serve head =>
      have served := extended.trans (judge_append_of_serve verdict _)
      obtain ⟨positive, starts⟩ := length_head_pos verdict
      have shorter := starts.length_le
      cases answered : answer routes head with
      | mk bytes keepAlive =>
          cases bytes with
          | none =>
              right
              have replies : repliesOf routes conn.buf = [.answered head] := by
                rw [replies_serve verdict, answered]
                rfl
              rw [service_unsent verdict answered, replies]
              exact ⟨rfl, _, .unsent served answered, by simp [Connection.outcome, Outcome.after]⟩
          | some bytes =>
              cases keepAlive with
              | false =>
                  right
                  have replies : repliesOf routes conn.buf = [.answered head] := by
                    rw [replies_serve verdict, answered]
                    rfl
                  rw [service_closes verdict answered, replies]
                  exact ⟨rfl, _, .closes served answered, rfl⟩
              | true =>
                  have dropped : (conn.answered head bytes).buf ++ rest =
                      (conn.buf ++ rest).drop head.length :=
                    (List.drop_append_of_le_length shorter).symm
                  have less : (conn.answered head bytes).buf.length < conn.buf.length := by
                    change (conn.buf.drop head.length).length < _
                    rw [List.length_drop]
                    omega
                  have move {replies : List Reply} {whole : Outcome}
                      (course : Course routes ((conn.answered head bytes).buf ++ rest) replies
                        whole) :
                      Course routes (conn.buf ++ rest) (.answered head :: replies)
                          (whole.after [bytes] head.length) ∧
                        whole.after (conn.answered head bytes).sent
                          (conn.answered head bytes).consumed =
                          (whole.after [bytes] head.length).after conn.sent conn.consumed :=
                    ⟨.continues served answered (dropped ▸ course),
                      (Outcome.after_after _ _ _ _ _).symm⟩
                  have replies : repliesOf routes conn.buf =
                      .answered head :: repliesOf routes (conn.answered head bytes).buf := by
                    rw [replies_serve verdict, answered]
                    rfl
                  rw [service_continues verdict answered, replies]
                  have stillOpen : (conn.answered head bytes).isOpen = true := isOpen
                  have fits : (conn.answered head bytes).buf.length ≤ kHeadCapacity := by omega
                  rcases inductionHypothesis _ less fits stillOpen rfl with
                    ⟨stays, waiting, smaller, each⟩ | ⟨closed, whole, course, same⟩
                  · refine Or.inl ⟨stays, waiting, by omega, fun replies outcome course => ?_⟩
                    obtain ⟨whole, earlier, same⟩ := each replies outcome course
                    exact ⟨_, (move earlier).1, same.trans (move earlier).2⟩
                  · exact Or.inr ⟨closed, _, (move course).1, same.trans (move course).2⟩

/-- However a stream is cut, it takes a course. -/
theorem course_of_session {stream : List Char} {replies : List Reply} {final : Connection}
    (session : Session routes conn stream replies final) (isOpen : conn.isOpen = true)
    (waiting : judge conn.buf = .wait) (within : conn.buf.length ≤ kHeadCapacity) :
    ∃ outcome, Course routes (conn.buf ++ stream) replies outcome ∧
      final.outcome = outcome.after conn.sent conn.consumed := by
  induction session with
  | ended stays =>
      refine ⟨⟨[], none⟩, .waits ?_, by simp [Connection.outcome, Outcome.after, stays]⟩
      rw [settled_append within]
      simpa using waiting
  | closed isClosed rest =>
      rw [isOpen] at isClosed
      cases isClosed
  | @recv conn final chunk rest replies _ nonempty fits later inductionHypothesis =>
      have full : ({ conn with buf := conn.buf ++ chunk } : Connection).buf.length ≤
          kHeadCapacity := by
        rw [List.length_append]
        exact fits
      have before : ({ conn with buf := conn.buf ++ chunk } : Connection).isOpen = true := isOpen
      have serviced := @service_course routes _ full before rest
      rcases serviced with ⟨stays, still, smaller, each⟩ | ⟨closed, whole, course, same⟩
      · obtain ⟨outcome, course, reached⟩ := inductionHypothesis stays still (smaller.trans full)
        obtain ⟨whole, earlier, same⟩ := each replies outcome course
        rw [List.append_assoc] at earlier
        exact ⟨whole, earlier, reached.trans same⟩
      · rw [List.append_assoc] at course
        cases later with
        | ended stays =>
            rw [receive, closed] at stays
            cases stays
        | closed _ _ =>
            rw [List.append_nil]
            exact ⟨whole, course, same⟩
        | recv stays _ _ _ =>
            rw [receive, closed] at stays
            cases stays

/-- However a stream is cut, it leads to a possible outcome. -/
theorem possible_of_delivers {stream : List Char} {final : Connection}
    (delivers : Delivers routes conn stream final) (isOpen : conn.isOpen = true)
    (waiting : judge conn.buf = .wait) (within : conn.buf.length ≤ kHeadCapacity) :
    ∃ outcome, Possible routes (conn.buf ++ stream) outcome ∧
      final.outcome = outcome.after conn.sent conn.consumed := by
  obtain ⟨replies, session⟩ := delivers.session
  obtain ⟨outcome, course, reached⟩ := course_of_session session isOpen waiting within
  exact ⟨outcome, course.possible, reached⟩

end Service

/-! ### Every possible outcome is delivered -/

section Deliver

variable {routes : List Route} {conn : Connection} {stream : List Char}

theorem length_of_settled_wait (verdict : settled stream = .wait) :
    stream.length < kHeadCapacity := by
  have larger : kMaxRequestLineBytes < kHeadCapacity := by decide
  by_contra full
  have size : (stream.take kHeadCapacity).length = kHeadCapacity := by
    rw [List.length_take]
    omega
  rcases judge_cases (stream.take kHeadCapacity) with ⟨-, ⟨short, -⟩ | ⟨-, taken⟩⟩ |
    ⟨firstCrlf, -, ⟨-, taken⟩ | ⟨-, -, ⟨short, -⟩ | ⟨-, taken⟩⟩ | ⟨-, headEnd, -, taken⟩⟩
  · omega
  · cases verdict.symm.trans taken
  · cases verdict.symm.trans taken
  · omega
  · cases verdict.symm.trans taken
  · cases verdict.symm.trans taken

/-- The two calls that cut a full request line between its CR and its LF. -/
theorem judge_cut (full : FullLine stream) :
    kMaxRequestLineBytes + 2 ≤ stream.length ∧
      judge (stream.take kMaxRequestLineBytes) = .wait ∧
      judge (stream.take (kMaxRequestLineBytes + 1)) = .refuse := by
  have size : crlf.length = 2 := rfl
  have inside := end_le_of_find full
  have none_of (count : Nat) (short : count < kMaxRequestLineBytes + 2) :
      find crlf (stream.take count) = none := by
    cases own : find crlf (stream.take count) with
    | none => rfl
    | some position =>
        have extended : find crlf (stream.take count ++ stream.drop count) = some position :=
          find_append_left own
        rw [List.take_append_drop, full] at extended
        have bound := end_le_of_find own
        rw [List.length_take] at bound
        cases extended
        omega
  refine ⟨by omega, ?_, ?_⟩
  · unfold judge
    rw [none_of _ (by omega)]
    exact if_neg (by rw [List.length_take]; omega)
  · unfold judge
    rw [none_of _ (by omega)]
    exact if_pos (by rw [List.length_take]; omega)

/-- A chunk that arrives in an empty buffer. -/
theorem receive_empty (empty : conn.buf = []) (chunk : List Char) :
    receive routes conn chunk = serviceConnection routes { conn with buf := chunk } := by
  rw [receive, empty, List.nil_append]

/-- A call that receives the first bytes of a stream. -/
theorem Delivers.first {final : Connection} (count : Nat) (isOpen : conn.isOpen = true)
    (nonempty : stream.take count ≠ [])
    (fits : conn.buf.length + (stream.take count).length ≤ kHeadCapacity)
    (later : Delivers routes (receive routes conn (stream.take count)) (stream.drop count) final) :
    Delivers routes conn stream final := by
  have delivered := Delivers.recv isOpen nonempty fits later
  rwa [List.take_append_drop] at delivered

/-- A call that closes the connection leaves the rest of the stream unread. -/
theorem delivers_closing {final : Connection} (count : Nat) (isOpen : conn.isOpen = true)
    (nonempty : stream.take count ≠ [])
    (fits : conn.buf.length + (stream.take count).length ≤ kHeadCapacity)
    (reached : receive routes conn (stream.take count) = final) (closed : final.isOpen = false) :
    Delivers routes conn stream final := by
  refine .first count isOpen nonempty fits ?_
  rw [reached]
  exact .closed closed _

/-- A complete head, received in one call by an empty buffer. -/
structure HeadFirst (stream head : List Char) : Prop where
  head_eq : stream.take head.length = head
  nonempty : head ≠ []
  within : head.length ≤ kHeadCapacity
  alone : judge head = .serve head

theorem headFirst_of_settled {head : List Char} (verdict : settled stream = .serve head) :
    HeadFirst stream head := by
  obtain ⟨positive, starts⟩ := length_head_pos verdict
  have fits := starts.length_le
  rw [List.length_take] at fits
  exact ⟨(List.prefix_iff_eq_take.mp (starts.trans (List.take_prefix _ _))).symm,
    List.ne_nil_of_length_pos positive, by omega, judge_head verdict⟩

theorem delivers_of_possible {outcome : Outcome} (possible : Possible routes stream outcome)
    (empty : conn.buf = []) (isOpen : conn.isOpen = true) :
    ∃ final, Delivers routes conn stream final ∧
      final.outcome = outcome.after conn.sent conn.consumed := by
  have room (count : Nat) (small : count ≤ kHeadCapacity) (stream : List Char) :
      conn.buf.length + (stream.take count).length ≤ kHeadCapacity := by
    rw [empty, List.length_nil, List.length_take]
    omega
  induction possible generalizing conn with
  | @waits stream verdict =>
      have short := length_of_settled_wait verdict
      rw [settled, List.take_of_length_le (by omega)] at verdict
      by_cases nothing : stream = []
      · subst nothing
        exact ⟨conn, .ended isOpen, by simp [Connection.outcome, Outcome.after, isOpen]⟩
      · have waits : receive routes conn stream = { conn with buf := stream } := by
          rw [receive_empty empty]
          exact service_wait verdict
        have delivered : Delivers routes conn (stream ++ []) { conn with buf := stream } := by
          refine .recv isOpen nothing (by rw [empty, List.length_nil]; omega) ?_
          rw [waits]
          exact .ended isOpen
        rw [List.append_nil] at delivered
        exact ⟨_, delivered, by simp [Connection.outcome, Outcome.after, isOpen]⟩
  | @refused stream verdict =>
      have present : stream.take kHeadCapacity ≠ [] := by
        intro nothing
        rw [settled, nothing] at verdict
        cases verdict
      have refuses : receive routes conn (stream.take kHeadCapacity) =
          { conn with
            buf := stream.take kHeadCapacity
            sent := conn.sent ++ (sendSimple 431).toList
            isOpen := false } := by
        rw [receive_empty empty]
        exact service_refuse verdict
      exact ⟨_, delivers_closing kHeadCapacity isOpen present (room _ le_rfl stream) refuses rfl,
        by simp [Connection.outcome, Outcome.after, refusal]⟩
  | @cut stream full =>
      -- First the 512 bytes of the line, then its CR alone.
      obtain ⟨long, waits, refuses⟩ := judge_cut full
      have line : kMaxRequestLineBytes + 1 ≤ kHeadCapacity := by decide
      have size : (stream.take kMaxRequestLineBytes).length = kMaxRequestLineBytes := by
        rw [List.length_take]
        omega
      have first : receive routes conn (stream.take kMaxRequestLineBytes) =
          { conn with buf := stream.take kMaxRequestLineBytes } := by
        rw [receive_empty empty]
        exact service_wait waits
      have joined : stream.take kMaxRequestLineBytes ++ (stream.drop kMaxRequestLineBytes).take 1 =
          stream.take (kMaxRequestLineBytes + 1) := List.take_add.symm
      have second : receive routes { conn with buf := stream.take kMaxRequestLineBytes }
          ((stream.drop kMaxRequestLineBytes).take 1) =
          { conn with
            buf := stream.take (kMaxRequestLineBytes + 1)
            sent := conn.sent ++ (sendSimple 431).toList
            isOpen := false } := by
        rw [receive, joined]
        exact service_refuse refuses
      have one : ((stream.drop kMaxRequestLineBytes).take 1).length = 1 := by
        rw [List.length_take, List.length_drop]
        omega
      have rest : Delivers routes { conn with buf := stream.take kMaxRequestLineBytes }
          (stream.drop kMaxRequestLineBytes) _ :=
        delivers_closing 1 isOpen (List.ne_nil_of_length_pos (by omega))
          (by rw [one, size]; exact line) second rfl
      rw [← first] at rest
      have present : stream.take kMaxRequestLineBytes ≠ [] :=
        List.ne_nil_of_length_pos (by rw [size]; decide)
      exact ⟨_, .first kMaxRequestLineBytes isOpen present (room _ (by omega) stream) rest,
        by simp [Connection.outcome, Outcome.after, refusal]⟩
  | @unsent stream head keepAlive verdict answered =>
      have first := headFirst_of_settled verdict
      have closes : receive routes conn (stream.take head.length) =
          { conn with buf := head, isOpen := false } := by
        rw [first.head_eq, receive_empty empty]
        exact service_unsent first.alone answered
      exact ⟨_, delivers_closing head.length isOpen (first.head_eq.symm ▸ first.nonempty)
        (room _ first.within stream) closes rfl,
        by simp [Connection.outcome, Outcome.after]⟩
  | @closes stream head bytes verdict answered =>
      have first := headFirst_of_settled verdict
      have closes : receive routes conn (stream.take head.length) =
          { Connection.answered { conn with buf := head } head bytes with isOpen := false } := by
        rw [first.head_eq, receive_empty empty]
        exact service_closes first.alone answered
      exact ⟨_, delivers_closing head.length isOpen (first.head_eq.symm ▸ first.nonempty)
        (room _ first.within stream) closes rfl,
        by simp [Connection.outcome, Connection.answered, Outcome.after]⟩
  | @continues stream head bytes outcome verdict answered later inductionHypothesis =>
      have first := headFirst_of_settled verdict
      have answers : receive routes conn (stream.take head.length) =
          Connection.answered { conn with buf := head } head bytes := by
        rw [first.head_eq, receive_empty empty, service_continues first.alone answered]
        refine service_wait ?_
        change judge (head.drop head.length) = _
        rw [List.drop_length]
        rfl
      have emptied : (Connection.answered { conn with buf := head } head bytes).buf = [] :=
        List.drop_length
      have stillOpen : (Connection.answered { conn with buf := head } head bytes).isOpen = true :=
        isOpen
      have clear (count : Nat) (small : count ≤ kHeadCapacity) (stream : List Char) :
          (Connection.answered { conn with buf := head } head bytes).buf.length +
            (stream.take count).length ≤ kHeadCapacity := by
        rw [emptied, List.length_nil, List.length_take]
        omega
      obtain ⟨final, delivered, reached⟩ := inductionHypothesis emptied stillOpen clear
      rw [← answers] at delivered
      refine ⟨final, .first head.length isOpen (first.head_eq.symm ▸ first.nonempty)
        (room _ first.within stream) delivered, ?_⟩
      rw [reached, Outcome.after_after]
      rfl

end Deliver

/-! ### Streams whose cutting matters -/

/-- The outcome of a stream whose requests are received undivided. -/
def undivided (routes : List Route) (stream : List Char) : Outcome :=
  match _verdict : settled stream with
  | .wait => ⟨[], none⟩
  | .refuse => refusal
  | .serve head =>
      match answer routes head with
      | (none, _) => ⟨[], some 0⟩
      | (some bytes, false) => ⟨[bytes], some head.length⟩
      | (some bytes, true) =>
          (undivided routes (stream.drop head.length)).after [bytes] head.length
termination_by stream.length
decreasing_by
  obtain ⟨positive, starts⟩ := length_head_pos _verdict
  have fits := (starts.trans (List.take_prefix _ _)).length_le
  rw [List.length_drop]
  omega

/-- Some request that the stream reaches has a request line of exactly 512
bytes and is not refused before its head is complete when it is received
undivided. -/
inductive Sensitive (routes : List Route) : List Char → Prop where
  | here {stream : List Char} (full : FullLine stream)
      (kept : settled stream ≠ .refuse) : Sensitive routes stream
  | later {stream head bytes : List Char} (verdict : settled stream = .serve head)
      (answered : answer routes head = (some bytes, true))
      (rest : Sensitive routes (stream.drop head.length)) : Sensitive routes stream

section Sensitivity

variable {routes : List Route} {stream : List Char}

theorem undivided_wait (verdict : settled stream = .wait) :
    undivided routes stream = ⟨[], none⟩ := by
  rw [undivided]
  split
  · rfl
  · next other => cases other.symm.trans verdict
  · next other => cases other.symm.trans verdict

theorem undivided_refuse (verdict : settled stream = .refuse) :
    undivided routes stream = refusal := by
  rw [undivided]
  split
  · next other => cases other.symm.trans verdict
  · rfl
  · next other => cases other.symm.trans verdict

theorem undivided_serve {head : List Char} (verdict : settled stream = .serve head) :
    undivided routes stream = match answer routes head with
      | (none, _) => ⟨[], some 0⟩
      | (some bytes, false) => ⟨[bytes], some head.length⟩
      | (some bytes, true) =>
          (undivided routes (stream.drop head.length)).after [bytes] head.length := by
  rw [undivided]
  split
  · next other => cases other.symm.trans verdict
  · next other => cases other.symm.trans verdict
  · next other =>
    cases other.symm.trans verdict
    rfl

theorem possible_undivided (routes : List Route) (stream : List Char) :
    Possible routes stream (undivided routes stream) := by
  induction size : stream.length using Nat.strong_induction_on generalizing stream with
  | h size inductionHypothesis =>
  subst size
  cases verdict : settled stream with
  | wait =>
      rw [undivided_wait verdict]
      exact .waits verdict
  | refuse =>
      rw [undivided_refuse verdict]
      exact .refused verdict
  | serve head =>
      rw [undivided_serve verdict]
      cases answered : answer routes head with
      | mk bytes keepAlive =>
          cases bytes with
          | none => exact .unsent verdict answered
          | some bytes =>
              cases keepAlive with
              | false => exact .closes verdict answered
              | true =>
                  obtain ⟨positive, starts⟩ := length_head_pos verdict
                  have fits := (starts.trans (List.take_prefix _ _)).length_le
                  refine .continues verdict answered (inductionHypothesis _ ?_ _ rfl)
                  rw [List.length_drop]
                  omega

theorem refusal_sent : refusal.sent ≠ [] := by decide +kernel

/-- Behind an answered head the refusal closes later. -/
theorem after_ne_refusal {sent : List (List Char)} {consumed : Nat} (positive : 0 < consumed)
    (outcome : Outcome) : outcome.after sent consumed ≠ refusal := by
  intro same
  obtain ⟨place, -, zero⟩ := Option.map_eq_some_iff.mp (congrArg Outcome.closedAt same)
  omega

/-- Only a refusal ends like one. -/
theorem undivided_ne_refusal (kept : settled stream ≠ .refuse) :
    undivided routes stream ≠ refusal := by
  cases verdict : settled stream with
  | wait =>
      rw [undivided_wait verdict]
      exact fun same => refusal_sent (congrArg Outcome.sent same).symm
  | refuse => exact absurd verdict kept
  | serve head =>
      have positive := (length_head_pos verdict).1
      rw [undivided_serve verdict]
      cases answered : answer routes head with
      | mk bytes keepAlive =>
          cases bytes with
          | none => exact fun same => refusal_sent (congrArg Outcome.sent same).symm
          | some bytes =>
              cases keepAlive with
              | false =>
                  intro same
                  have place := Option.some.inj (congrArg Outcome.closedAt same)
                  omega
              | true => exact after_ne_refusal positive _

/-- Where cutting does not matter there is one outcome. -/
theorem eq_undivided_of_possible {outcome : Outcome} (possible : Possible routes stream outcome)
    (insensitive : ¬ Sensitive routes stream) : outcome = undivided routes stream := by
  induction possible with
  | waits verdict => rw [undivided_wait verdict]
  | refused verdict => rw [undivided_refuse verdict]
  | cut full =>
      by_contra other
      refine insensitive (.here full fun refused => other ?_)
      rw [undivided_refuse refused]
  | unsent verdict answered => rw [undivided_serve verdict, answered]
  | closes verdict answered => rw [undivided_serve verdict, answered]
  | continues verdict answered _ inductionHypothesis =>
      rw [undivided_serve verdict, answered,
        inductionHypothesis fun rest => insensitive (.later verdict answered rest)]

theorem Outcome.after_injective {sent : List (List Char)} {consumed : Nat}
    {first second : Outcome} (same : first.after sent consumed = second.after sent consumed) :
    first = second := by
  obtain ⟨firstSent, firstClosed⟩ := first
  obtain ⟨secondSent, secondClosed⟩ := second
  simp only [Outcome.after, Outcome.mk.injEq, List.append_cancel_left_eq] at same
  have closed : firstClosed = secondClosed :=
    Option.map_injective (fun _ _ equal => Nat.add_left_cancel equal) same.2
  rw [same.1, closed]

/-- Where it matters there are two. -/
theorem exists_two_of_sensitive (sensitive : Sensitive routes stream) :
    ∃ first second, Possible routes stream first ∧ Possible routes stream second ∧
      first ≠ second := by
  induction sensitive with
  | @here stream full kept =>
      exact ⟨_, _, possible_undivided routes stream, .cut full, undivided_ne_refusal kept⟩
  | later verdict answered _ inductionHypothesis =>
      obtain ⟨first, second, left, right, different⟩ := inductionHypothesis
      exact ⟨_, _, .continues verdict answered left, .continues verdict answered right,
        fun same => different (Outcome.after_injective same)⟩

theorem Outcome.after_nil (outcome : Outcome) : outcome.after [] 0 = outcome := by
  obtain ⟨sent, closedAt⟩ := outcome
  cases closedAt <;> simp [Outcome.after]

/-- The outcomes of a stream on a fresh connection are the possible ones. -/
theorem delivers_fresh_iff {outcome : Outcome} :
    (∃ final, Delivers routes Connection.fresh stream final ∧ final.outcome = outcome) ↔
      Possible routes stream outcome := by
  constructor
  · rintro ⟨final, delivers, rfl⟩
    obtain ⟨outcome, possible, reached⟩ :=
      possible_of_delivers delivers rfl rfl (Nat.zero_le _)
    rw [reached, Connection.fresh, Outcome.after_nil]
    exact possible
  · intro possible
    have empty : Connection.fresh.buf = [] := rfl
    obtain ⟨final, delivers, reached⟩ := delivers_of_possible possible empty rfl
    rw [Connection.fresh, Outcome.after_nil] at reached
    exact ⟨final, delivers, reached⟩

/-- The responses on a connection and the point where it is closed do not depend
on how the stream is cut, exactly when every request that it reaches with a
request line of 512 bytes is refused before its head is complete anyway. -/
theorem segmentation_independent_iff :
    (∀ first second, Delivers routes Connection.fresh stream first →
      Delivers routes Connection.fresh stream second → first.outcome = second.outcome) ↔
      ¬ Sensitive routes stream := by
  constructor
  · intro same sensitive
    obtain ⟨left, right, leftPossible, rightPossible, different⟩ :=
      exists_two_of_sensitive sensitive
    obtain ⟨first, firstDelivers, rfl⟩ := delivers_fresh_iff.mpr leftPossible
    obtain ⟨second, secondDelivers, rfl⟩ := delivers_fresh_iff.mpr rightPossible
    exact different (same first second firstDelivers secondDelivers)
  · intro insensitive first second firstDelivers secondDelivers
    rw [eq_undivided_of_possible (delivers_fresh_iff.mp ⟨first, firstDelivers, rfl⟩) insensitive,
      eq_undivided_of_possible (delivers_fresh_iff.mp ⟨second, secondDelivers, rfl⟩) insensitive]

end Sensitivity

/-- A request whose request line has exactly 512 bytes. -/
def fullLineRequest : List Char :=
  "GET /".toList ++ List.replicate 498 'a' ++ " HTTP/1.1".toList ++ headMark

/-- Cut between the CR and the LF of its request line the request is refused and
the connection closed; received in one piece it is answered and the connection
stays open. -/
theorem segmentation_matters :
    ∃ first second, Delivers [] Connection.fresh fullLineRequest first ∧
      Delivers [] Connection.fresh fullLineRequest second ∧ first.outcome ≠ second.outcome := by
  have full : FullLine fullLineRequest := by decide +kernel
  have verdict : settled fullLineRequest = .serve fullLineRequest := by decide +kernel
  have answered : (answer [] fullLineRequest).1.isSome = true ∧
      (answer [] fullLineRequest).2 = true := by decide +kernel
  have whole : (undivided [] fullLineRequest).closedAt = none := by
    rw [undivided_serve verdict]
    obtain ⟨bytes, sent⟩ := Option.isSome_iff_exists.mp answered.1
    rw [show answer [] fullLineRequest = (some bytes, true) from Prod.ext sent answered.2,
      List.drop_length, undivided_wait (by decide)]
    rfl
  obtain ⟨first, firstDelivers, firstOutcome⟩ :=
    delivers_fresh_iff.mpr (possible_undivided [] fullLineRequest)
  obtain ⟨second, secondDelivers, secondOutcome⟩ := delivers_fresh_iff.mpr (Possible.cut full)
  refine ⟨first, second, firstDelivers, secondDelivers, fun same => ?_⟩
  rw [firstOutcome, secondOutcome] at same
  rw [same] at whole
  cases whole

end SafetyCrit.Observability.Http
