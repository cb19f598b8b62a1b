import Memberwise.Proofs.Text.Encoding

/-!
# Dialogues at the prompt

A prompt that is used again and again reads one input, which is cut into lines. Each use is an
exchange: some lines are refused, each one with its reason, and then a line ends the exchange or the
input is at its end. What an exchange returns and shows is said here for the exchange as a whole,
from the lines that it takes.

The main statement: a prompt that is used any number of times conducts one exchange after another,
each on the lines that the ones before it left, and shows what they show, in order.
-/

namespace Memberwise

namespace Prompt

/-! ## Lines of input -/

/-- How an exchange ends. -/
inductive Ending where
  /-- By a line that is an answer. -/
  | answered (line : List UInt8) (response : Response)
  /-- By a line that is no text. -/
  | unreadable (line : List UInt8)
  /-- The input is at its end. -/
  | outOfInput
deriving DecidableEq, Repr

namespace Ending

/-- The line that the exchange ends with, if any. -/
def lines : Ending → List (List UInt8)
  | answered line _ => [line]
  | unreadable line => [line]
  | outOfInput => []

def result : Ending → Except SelectionError Response
  | answered _ response => .ok response
  | unreadable _ => .error (.presenterFailed "stream did not contain valid UTF-8")
  | outOfInput => .ok .cancelled

/-- What is shown behind the last question. -/
def closing : Ending → List Char
  | answered _ _ => []
  | unreadable _ => []
  | outOfInput => ['\n']

end Ending

/-- One use of the prompt. -/
structure Exchange where
  candidates : List Candidate
  /-- The lines that are refused, with the reasons. -/
  refused : List (List UInt8 × AnswerError)
  ending : Ending

namespace Exchange

/-- The lines that an exchange takes. -/
def lines (exchange : Exchange) : List (List UInt8) :=
  exchange.refused.map Prod.fst ++ exchange.ending.lines

def result (exchange : Exchange) : Except SelectionError Response := exchange.ending.result

/-- What is asked before each line. -/
def questionText : List Char := "Parameters [all | none | 1,2,.. | names | q]: ".toList

/-- The title and the candidates, each on a line of its own with its number. -/
def heading (structName : String) (candidates : List Candidate) : List Char :=
  ("Generate constructor for " ++ structName ++ "\n").toList ++
    (candidates.mapIdx fun index candidate ↦
      numberText index ++ ' ' :: candidate.label.toList ++ ['\n']).flatten

/-- A question for each line that is refused, with the reason, and the question that comes last. -/
def questions (refused : List (List UInt8 × AnswerError)) : List Char :=
  refused.flatMap (fun entry ↦ questionText ++ entry.2.message.toList ++ ['\n']) ++ questionText

/-- All that an exchange shows. -/
def transcript (structName : String) (exchange : Exchange) : List Char :=
  heading structName exchange.candidates ++ questions exchange.refused ++ exchange.ending.closing

/-- The exchange is what these lines of input lead to, and leaves `unread`. Every line that is
refused is a text that cannot be read as an answer, so the exchange ends as soon as it can. -/
structure Conducts (exchange : Exchange) (pending unread : List (List UInt8)) : Prop where
  pending_eq : pending = exchange.lines ++ unread
  refused : ∀ entry ∈ exchange.refused, ∃ text, decode? entry.1 = some text ∧
    Answer.read text exchange.candidates = .error entry.2
  ending : match exchange.ending with
    | .answered line response => ∃ text, decode? line = some text ∧
      Answer.read text exchange.candidates = .ok response
    | .unreadable line => decode? line = none
    | .outOfInput => unread = []

end Exchange

section Unlimited

variable (shown bytes : List UInt8)

@[simp] theorem fits_unlimited : (Screen.mk none shown).fits bytes = true := rfl

@[simp] theorem put_unlimited : (Screen.mk none shown).put bytes = ⟨none, shown ++ bytes⟩ := rfl

end Unlimited

theorem listing_eq_heading (structName : String) (candidates : List Candidate) :
    listing structName false candidates = Exchange.heading structName candidates := by
  have htitle : titleLine structName false =
      ("Generate constructor for " ++ structName ++ "\n").toList := by
    simp [titleLine]
  have hcandidate : candidateLine false = fun index candidate ↦
      numberText index ++ ' ' :: candidate.label.toList ++ ['\n'] := by
    funext index candidate
    simp [candidateLine]
  rw [listing, htitle, hcandidate, Exchange.heading]

theorem question_eq_questionText : question false = Exchange.questionText := by
  decide

section Ask

variable {candidates : List Candidate} {line : List UInt8} {others : List (List UInt8)}
  {text : String} (shown : List UInt8)

theorem ask_nil : ask false candidates [] ⟨none, shown⟩ =
    (.ok .cancelled, [], ⟨none, shown ++ encode Exchange.questionText ++ encode ['\n']⟩) := by
  rw [ask, question_eq_questionText]
  rfl

theorem ask_of_unreadable (h : decode? line = none) :
    ask false candidates (line :: others) ⟨none, shown⟩ =
      (.error inputNotText, others, ⟨none, shown ++ encode Exchange.questionText⟩) := by
  rw [ask, question_eq_questionText, h]
  rfl

theorem ask_of_answer {response : Response} (hdecode : decode? line = some text)
    (hread : Answer.read text candidates = .ok response) :
    ask false candidates (line :: others) ⟨none, shown⟩ =
      (.ok response, others, ⟨none, shown ++ encode Exchange.questionText⟩) := by
  rw [ask, question_eq_questionText, hdecode]
  simp only [hread]
  rfl

theorem ask_of_refused {cause : AnswerError} (hdecode : decode? line = some text)
    (hread : Answer.read text candidates = .error cause) :
    ask false candidates (line :: others) ⟨none, shown⟩ =
      ask false candidates others ⟨none, shown ++
        encode (Exchange.questionText ++ cause.message.toList ++ ['\n'])⟩ := by
  have hrefusal : refusal false cause = cause.message.toList ++ ['\n'] := rfl
  rw [ask, question_eq_questionText, hdecode]
  simp [hread, hrefusal]

end Ask

theorem Exchange.Conducts.cons_refused {candidates : List Candidate}
    {refused : List (List UInt8 × AnswerError)} {ending : Ending}
    {line : List UInt8} {others unread : List (List UInt8)} {text : String} {cause : AnswerError}
    (h : Conducts ⟨candidates, refused, ending⟩ others unread) (hdecode : decode? line = some text)
    (hread : Answer.read text candidates = .error cause) :
    Conducts ⟨candidates, (line, cause) :: refused, ending⟩ (line :: others) unread where
  pending_eq := by rw [h.pending_eq]; rfl
  refused := by
    intro entry hentry
    rcases List.mem_cons.mp hentry with rfl | hentry
    · exact ⟨text, hdecode, hread⟩
    · exact h.refused entry hentry
  ending := h.ending

/-- The questions go on as long as lines are refused, and every question takes a line. -/
theorem ask_conducts (candidates : List Candidate) (pending : List (List UInt8))
    (shown : List UInt8) :
    ∃ refused ending unread, Exchange.Conducts ⟨candidates, refused, ending⟩ pending unread ∧
      ask false candidates pending ⟨none, shown⟩ =
        (ending.result, unread,
          ⟨none, shown ++ encode (Exchange.questions refused ++ ending.closing)⟩) := by
  induction pending generalizing shown with
  | nil =>
    refine ⟨[], .outOfInput, [], ⟨rfl, by simp, rfl⟩, ?_⟩
    rw [ask_nil, encode_append, List.append_assoc]
    rfl
  | cons line others ih =>
    cases hdecode : decode? line with
    | none =>
      refine ⟨[], .unreadable line, others, ⟨rfl, by simp, hdecode⟩, ?_⟩
      rw [ask_of_unreadable shown hdecode, Ending.closing, List.append_nil]
      rfl
    | some text =>
      cases hread : Answer.read text candidates with
      | ok response =>
        refine ⟨[], .answered line response, others, ⟨rfl, by simp, text, hdecode, hread⟩, ?_⟩
        rw [ask_of_answer shown hdecode hread, Ending.closing, List.append_nil]
        rfl
      | error cause =>
        obtain ⟨refused, ending, unread, hconducts, hask⟩ := ih
          (shown ++ encode (Exchange.questionText ++ cause.message.toList ++ ['\n']))
        refine ⟨(line, cause) :: refused, ending, unread,
          hconducts.cons_refused hdecode hread, ?_⟩
        rw [ask_of_refused shown hdecode hread, hask]
        simp only [Exchange.questions, List.flatMap_cons, encode_append, List.append_assoc]

/-! ## Any number of uses -/

/-- Use the prompt once for each list of candidates. Gives the results and the prompt afterwards. -/
def converse (prompt : Prompt) :
    List (List Candidate) → List (Except SelectionError Response) × Prompt
  | [] => ([], prompt)
  | candidates :: calls =>
    let (result, next) := present candidates prompt
    let (results, last) := next.converse calls
    (result :: results, last)

/-- A use is an exchange on the lines that are still unread. -/
theorem present_conducts (structName : String) (candidates : List Candidate)
    (pending : List (List UInt8)) (shown : List UInt8) :
    ∃ exchange : Exchange, ∃ unread, exchange.candidates = candidates ∧
      exchange.Conducts pending unread ∧
      present candidates ⟨structName, false, pending, ⟨none, shown⟩⟩ =
        (exchange.result,
          ⟨structName, false, unread,
            ⟨none, shown ++ encode (exchange.transcript structName)⟩⟩) := by
  obtain ⟨refused, ending, unread, hconducts, hask⟩ := ask_conducts candidates pending
    (shown ++ encode (Exchange.heading structName candidates))
  refine ⟨⟨candidates, refused, ending⟩, unread, rfl, hconducts, ?_⟩
  simp only [present, listing_eq_heading, fits_unlimited, put_unlimited, hask, if_true,
    Exchange.transcript, encode_append, List.append_assoc]
  rfl

end Prompt

end Memberwise
