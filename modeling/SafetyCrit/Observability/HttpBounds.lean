import SafetyCrit.Observability.HttpHeads

/-!
Owns the size bounds of request heads: which heads the server refuses with 431,
against the bounds that the header documents.

The bounds are kept except at their corners. A request line of 512 bytes may be
refused because its CR comes before its LF; the buffer has no room for the line
end behind a request line of 511 bytes and a header section of 8192; and the
header lines are counted by their LF bytes, so a bare LF counts as a line.
-/

namespace SafetyCrit.Observability.Http

/-! ### Every occurrence of a head -/

namespace RequestHead

variable {head : RequestHead}

/-- Whatever stream the head occurs in, wherever it begins there and however the
stream is cut: if the replies before it keep the connection open, the server
replies to the head, and the reply, the replies behind it and the connection at
the end are good. -/
def Always (head : RequestHead)
    (Good : List Route → Reply → List Reply → Connection → Prop) : Prop :=
  ∀ routes stream before later final,
    Session routes Connection.fresh stream (before ++ later) final →
    (∀ earlier ∈ before, earlier.keeps routes = true) →
    head.text <+: stream.drop (consumed before) →
    ∃ reply behind, later = reply :: behind ∧ Good routes reply behind final

/-- The reply to an occurrence of a head. -/
theorem reply_of_session {routes : List Route} {stream : List Char} {before later : List Reply}
    {final : Connection} (session : Session routes Connection.fresh stream (before ++ later) final)
    (kept : ∀ earlier ∈ before, earlier.keeps routes = true)
    (starts : head.text <+: stream.drop (consumed before)) :
    ∃ reply behind, later = reply :: behind ∧
      (reply = .refused ∧ ¬ head.Held ∨ reply = .answered head.text ∧
        head.line.length ≤ kMaxRequestLineBytes ∧ head.text.length ≤ kHeadCapacity) ∧
      (reply.keeps routes = false → behind = [] ∧ final.isOpen = false) := by
  obtain ⟨outcome, course, reached⟩ := course_of_session session rfl rfl (Nat.zero_le _)
  obtain ⟨rest, behindCourse, same⟩ := Course.behind course kept
  obtain ⟨remainder, equal⟩ := starts
  rw [Connection.fresh, Outcome.after_nil] at reached
  rw [Connection.fresh, List.nil_append, ← equal] at behindCourse
  obtain ⟨reply, behind, shape, either, ends⟩ := behindCourse.reply_text
  refine ⟨reply, behind, shape, either, fun stops => ⟨(ends stops).1, ?_⟩⟩
  have closed := (ends stops).2
  rw [same, ← reached, Connection.outcome] at closed
  cases still : final.isOpen with
  | false => rfl
  | true =>
      rw [still] at closed
      cases closed

/-- A head within the request line bound and the buffer, received in one call,
is answered. -/
theorem exists_answer (routes : List Route) (line : head.line.length ≤ kMaxRequestLineBytes)
    (room : head.text.length ≤ kHeadCapacity) :
    ∃ behind final,
      Session routes Connection.fresh head.text (.answered head.text :: behind) final := by
  have verdict := head.settled_text []
  rw [List.append_nil, if_pos ⟨line, room⟩, settled, List.take_of_length_le room] at verdict
  have nonempty : head.text ≠ [] := List.ne_nil_of_length_pos (length_head_pos verdict).1
  have ended : Session routes (receive routes Connection.fresh head.text) [] []
      (receive routes Connection.fresh head.text) := by
    cases still : (receive routes Connection.fresh head.text).isOpen with
    | true => exact .ended still
    | false => exact .closed still []
  have session := Session.recv rfl nonempty (by rw [Connection.fresh]; simpa using room) ended
  rw [List.append_nil, List.append_nil, Connection.fresh, List.nil_append] at session
  cases kept : (answer routes head.text).1.isSome && (answer routes head.text).2 with
  | true =>
      rw [replies_serve verdict, kept] at session
      exact ⟨_, _, session⟩
  | false =>
      rw [replies_serve verdict, kept] at session
      exact ⟨_, _, session⟩

/-- What is good of every reply to a head is good of the refusal, where a
segmentation leads to it, and of the answer, where one leads to that. -/
theorem always_iff {Good : List Route → Reply → List Reply → Connection → Prop}
    {GoodReply : Reply → Prop}
    (settles : ∀ routes reply behind final,
      (reply.keeps routes = false → behind = [] ∧ final.isOpen = false) →
      (Good routes reply behind final ↔ GoodReply reply)) :
    head.Always Good ↔ (¬ head.Held → GoodReply .refused) ∧
      (head.line.length ≤ kMaxRequestLineBytes → head.text.length ≤ kHeadCapacity →
        GoodReply (.answered head.text)) := by
  have first {reply : Reply} {behind : List Reply} {final : Connection} (always : head.Always Good)
      (session : Session [] Connection.fresh head.text (reply :: behind) final) :
      GoodReply reply := by
    have unkept : ∀ earlier ∈ ([] : List Reply), earlier.keeps [] = true := by simp
    have starts : head.text <+: head.text.drop (consumed []) := List.prefix_rfl
    obtain ⟨_, _, shape, good⟩ := always [] head.text [] _ final session unkept starts
    obtain ⟨_, _, same, -, ends⟩ :=
      @reply_of_session head [] head.text [] _ final session unkept starts
    cases shape
    cases same
    exact (settles _ _ _ _ ends).mp good
  constructor
  · intro always
    refine ⟨fun unheld => ?_, fun line room => ?_⟩
    · obtain ⟨final, session⟩ := exists_refusal [] unheld
      exact first always session
    · obtain ⟨behind, final, session⟩ := exists_answer [] line room
      exact first always session
  · rintro ⟨refusing, answering⟩ routes stream before later final session kept starts
    obtain ⟨reply, behind, shape, either, ends⟩ := reply_of_session session kept starts
    refine ⟨reply, behind, shape, (settles _ _ _ _ ends).mpr ?_⟩
    rcases either with ⟨rfl, unheld⟩ | ⟨rfl, line, room⟩
    · exact refusing unheld
    · exact answering line room

/-! ### The bounds -/

/-- The head exceeds one of the bounds that the header documents. -/
def Oversized (head : RequestHead) : Prop :=
  head.line.length > kMaxRequestLineBytes ∨ head.headerSection.length > kMaxHeaderBytes ∨
    head.fields.length > kMaxHeaderLines

instance (head : RequestHead) : Decidable head.Oversized :=
  inferInstanceAs (Decidable (_ ∨ _ ∨ _))

/-- No size check stops the head, however it is cut. -/
structure Admitted (head : RequestHead) : Prop where
  line : head.line.length < kMaxRequestLineBytes
  room : head.text.length ≤ kHeadCapacity
  lineFeeds : head.headerSection.countP (· = '\n') < kMaxHeaderLines

theorem fields_le_lineFeeds (fields : List (List Char)) :
    fields.length ≤ (crlf.intercalate fields).countP (· = '\n') + 1 := by
  induction fields with
  | nil => exact Nat.zero_le _
  | cons field fields inductionHypothesis =>
      cases fields with
      | nil => simp
      | cons other fields =>
          rw [List.intercalate_cons_cons, List.countP_append, List.countP_append]
          have one : crlf.countP (· = '\n') = 1 := by decide
          rw [List.length_cons]
          omega

theorem decideHead_tooLarge_iff (head : RequestHead) :
    decideHead head.text = .tooLarge ↔ head.headerSection.length > kMaxHeaderBytes ∨
      head.headerSection.countP (· = '\n') + 1 > kMaxHeaderLines := by
  rw [decideHead_text]
  split_ifs with large
  · exact iff_of_true rfl large
  · exact iff_of_false (decideLines_ne_tooLarge _ _) large

theorem Admitted.held (admitted : head.Admitted) : head.Held := ⟨admitted.line, admitted.room⟩

/-- A head is answered with 431 exactly where it exceeds a bound, if it does or
if no size check stops it. -/
theorem size_bounds_iff (head : RequestHead) :
    head.Always (fun _ reply _ _ => reply.decision = .tooLarge ↔ head.Oversized) ↔
      head.Oversized ∨ head.Admitted := by
  have counted := fields_le_lineFeeds head.fields
  have decided := decideHead_tooLarge_iff head
  let bounded (reply : Reply) : Prop := reply.decision = .tooLarge ↔ head.Oversized
  have each : head.Always (fun _ reply _ _ => bounded reply) ↔ _ :=
    always_iff fun _ _ _ _ _ => Iff.rfl
  refine each.trans ?_
  constructor
  · rintro ⟨refusing, answering⟩
    refine or_iff_not_imp_left.mpr fun sized => ?_
    have held : head.Held := by
      by_contra unheld
      exact sized ((refusing unheld).mp rfl)
    have small := (not_congr (answering (Nat.le_of_lt held.1) held.2)).mpr sized
    have fine := not_or.mp ((not_congr decided).mp small)
    exact ⟨held.1, held.2, by omega⟩
  · rintro (oversized | admitted)
    · refine ⟨fun _ => iff_of_true rfl oversized, fun line room => iff_of_true ?_ oversized⟩
      refine decided.mpr ?_
      rcases oversized with long | large | many
      · omega
      · exact Or.inl large
      · exact Or.inr (by rw [headerSection]; omega)
    · refine ⟨fun unheld => absurd admitted.held unheld, fun line room => ?_⟩
      have fewer := admitted.lineFeeds
      refine ⟨fun large => ?_, fun oversized => ?_⟩
      · rcases decided.mp large with long | many
        · exact Or.inr (Or.inl long)
        · omega
      · rcases oversized with long | large | many
        · omega
        · exact decided.mpr (Or.inl large)
        · rw [headerSection] at fewer
          omega

theorem crlf_free_of_not_mem {line : List Char} (foreign : '\r' ∉ line) : ¬ crlf <:+: line :=
  fun inside => foreign (inside.subset (by simp [crlf]))

end RequestHead

/-- A request line of 511 bytes. -/
def boundaryLine : List Char :=
  "GET /".toList ++ List.replicate 497 'a' ++ " HTTP/1.1".toList

/-- A header line of 8192 bytes. -/
def boundaryField : List Char := "a:".toList ++ List.replicate 8190 'b'

theorem boundaryLine_free : ¬ crlf <:+: boundaryLine :=
  RequestHead.crlf_free_of_not_mem (by decide +kernel)

theorem boundaryField_free : ∀ field ∈ [boundaryField], field ≠ [] ∧ ¬ crlf <:+: field := by
  rw [List.forall_mem_singleton]
  exact ⟨by decide +kernel, RequestHead.crlf_free_of_not_mem (by decide +kernel)⟩

def boundaryHead : RequestHead :=
  ⟨boundaryLine, [boundaryField], boundaryLine_free, boundaryField_free⟩

/-- A head within all bounds does not fit the buffer and is refused. -/
theorem boundary_head_refused :
    ¬ boundaryHead.Oversized ∧
      ∃ final, Session [] Connection.fresh boundaryHead.text [.refused] final := by
  have line : boundaryHead.line.length = 511 := by decide +kernel
  have region : boundaryHead.headerSection.length = 8192 := by decide +kernel
  have whole : boundaryHead.text.length = 8709 := by decide +kernel
  refine ⟨?_, exists_refusal [] fun held => ?_⟩
  · rw [RequestHead.Oversized, line, region]
    decide
  · have room := held.2
    rw [whole] at room
    exact absurd room (by decide)

end SafetyCrit.Observability.Http
