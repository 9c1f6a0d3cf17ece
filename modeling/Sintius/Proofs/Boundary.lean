import Mathlib
import Sintius.Lib.Date
import Sintius.Lib.NumberText
import Sintius.Lib.Utf16
import Sintius.Spec.Boundary

/-! What the error boundary maps. A response that is returned carries one correlation
identifier and does not depend on the sink; it is returned for exactly those thrown values
that can be described. -/

namespace Sintius.Boundary

open Js Js.Date Redaction

variable {σ : Type} {uuid : RandomUuid} {error : Thrown} {context : ProblemBoundaryContext}
  {sink : Option (UnexpectedErrorSink σ)} {clock : Instant} {s : σ}

section Correlation

theorem TRACE_ID_PATTERN_newTraceId (uuid : RandomUuid) :
    TRACE_ID_PATTERN (newTraceId uuid) = true := by
  have hunit : ∀ c ∈ uuid.text, (isLetter c || isDigit c || among "._:-" c) = true := by
    intro c hc
    rcases uuid.mem c hc with hhex | rfl
    · simp only [Id.isLowerHex, Bool.or_eq_true, Bool.and_eq_true, decide_eq_true_eq] at hhex
      simp only [isLetter, isDigit, Bool.or_eq_true, Bool.and_eq_true, decide_eq_true_eq]
      omega
    · decide +kernel
  have hpre : ascii "corr_" = [0x63, 0x6f, 0x72, 0x72, 0x5f] := by decide +kernel
  have hwide : [(0x6f : CodeUnit), 0x72, 0x72, 0x5f].all
      (fun c => isLetter c || isDigit c || among "._:-" c) = true := by decide +kernel
  have hall : ([0x6f, 0x72, 0x72, 0x5f] ++ uuid.text).all
      (fun c => isLetter c || isDigit c || among "._:-" c) = true := by
    rw [List.all_append, hwide, Bool.true_and, List.all_eq_true]
    exact hunit
  have hstart : (isLetter (0x63 : CodeUnit) || isDigit 0x63) = true := by decide
  unfold newTraceId
  rw [hpre]
  show (_ && _ && _) = true
  rw [hstart, Bool.true_and, Bool.and_eq_true]
  exact ⟨by simp [uuid.length_eq], hall⟩

theorem isValidTraceId_eq_some {value : Value} {text : Text}
    (h : isValidTraceId value = some text) : TRACE_ID_PATTERN text = true := by
  unfold isValidTraceId at h
  split at h
  · split_ifs at h with hvalid
    cases h
    exact hvalid
  · cases h

/-- The correlation identifier is valid, whatever the context and the error carry. -/
theorem TRACE_ID_PATTERN_pickCorrelationId (uuid : RandomUuid) (context : ProblemBoundaryContext)
    (carried : Value) : TRACE_ID_PATTERN (pickCorrelationId uuid context carried) = true := by
  unfold pickCorrelationId
  cases hown : isValidTraceId context.correlationId with
  | some text => exact isValidTraceId_eq_some hown
  | none =>
    cases hcarried : isValidTraceId carried with
    | some text => exact isValidTraceId_eq_some hcarried
    | none => exact TRACE_ID_PATTERN_newTraceId uuid

end Correlation

section Returns

/-- Both times the question is asked, the answer is no. -/
def NotPlatformProblem : Thrown → Prop
  | .primitive _ _ => True
  | .object o => o.isProblem = some false ∧ o.isProblemAgain = some false

/-- The response to what is not a problem of the platform. -/
def internalErrorResponse (correlationId : Text) : ProblemResponse where
  status := .number 500
  headers := [(ascii "content-type", PROBLEM_CONTENT_TYPE),
    (CORRELATION_ID_HEADER, correlationId)]
  body :=
    { type := .string (ascii "https://errors.sintius.example/internal_error")
      title := .string (ascii "Internal error")
      status := .number 500
      code := .string (ascii "internal_error")
      detail := .string (ascii
        "An unexpected error occurred. Quote the correlation ID when contacting support.")
      correlation_id := correlationId
      errors := none }

/-- A string, or a value on which redaction works. -/
def Redactable.Works : Redactable → Prop
  | .string _ => True
  | .other outcome => outcome.isSome

theorem isSome_redact {r : Redactable} : (redact r).isSome ↔ r.Works := by
  cases r <;> simp [redact, Redactable.Works]

/-- What `describeThrown` reads of an object can be read, and redacted. -/
inductive Described (o : ThrownObject) : Prop where
  | error (herror : o.isError = some true) (hname : o.name.isSome)
      (hmessage : ∃ m, o.message = some m ∧ m.Works)
      (hstack : o.hasStack = some false ∨
        (o.hasStack = some true ∧ ∃ m, o.stack = some m ∧ m.Works))
  | value (herror : o.isError = some false) (htext : o.text.isSome)

theorem exists_describeThrown {o : ThrownObject} :
    (∃ evidence, describeThrown (.object o) = some evidence) ↔ Described o := by
  unfold describeThrown
  constructor
  · rintro ⟨evidence, h⟩
    simp only [Option.bind_eq_bind, Option.bind_eq_some_iff] at h
    obtain ⟨isError, herror, h⟩ := h
    cases isError with
    | false =>
      simp only [Bool.false_eq_true, if_false, Option.bind_eq_some_iff] at h
      obtain ⟨text, htext, -⟩ := h
      exact .value herror (by simp [htext])
    | true =>
      simp only [if_true, Option.bind_eq_some_iff] at h
      obtain ⟨name, hname, message, hmessage, v, hv, hasStack, hhas, h⟩ := h
      refine .error herror (by simp [hname])
        ⟨message, hmessage, isSome_redact.mp (by simp [hv])⟩ ?_
      cases hasStack with
      | false => exact .inl hhas
      | true =>
        simp only [if_true, Option.bind_eq_some_iff] at h
        obtain ⟨stack, hstack, v', hv', -⟩ := h
        exact .inr ⟨hhas, stack, hstack, isSome_redact.mp (by simp [hv'])⟩
  · intro h
    cases h with
    | value herror htext =>
      obtain ⟨text, htext⟩ := Option.isSome_iff_exists.mp htext
      simp [herror, htext]
    | error herror hname hmessage hstack =>
      obtain ⟨name, hname⟩ := Option.isSome_iff_exists.mp hname
      obtain ⟨m, hm, hworks⟩ := hmessage
      obtain ⟨v, hv⟩ := Option.isSome_iff_exists.mp (isSome_redact.mpr hworks)
      rcases hstack with hhas | ⟨hhas, st, hst, hworks'⟩
      · simp [herror, hname, hm, hv, hhas]
      · obtain ⟨v', hv'⟩ := Option.isSome_iff_exists.mp (isSome_redact.mpr hworks')
        simp [herror, hname, hm, hv, hhas, hst, hv']

/-- What the response copies can be read. -/
structure Details.Readable (d : Details) : Prop where
  correlation_id : d.correlation_id.isSome
  type : d.type.isSome
  title : d.title.isSome
  status : d.status.isSome
  code : d.code.isSome
  detail : d.detail.isSome
  errors : d.errors = some .undefined ∨ (d.errors.isSome ∧ d.errorsAgain.isSome)
  statusAgain : d.statusAgain.isSome

def RetryAfter.Printable : RetryAfter → Prop
  | .undefined => True
  | .seconds text => text.isSome

/-- The retry hint is not read, or it can be read and printed. -/
inductive RetryReadable (o : ThrownObject) : Prop where
  | none (hproblem : o.isProblemAgain = some false)
  | hint {r : RetryAfter} (hproblem : o.isProblemAgain = some true)
      (hread : o.retryAfterSeconds = some r) (hprint : r.Printable)

/-- A thrown value that the boundary can describe: a primitive; an object that is no problem
of the platform, or one without details, if the accesses to the object that the boundary makes
all return, its message is a string and its stack, if it has one, too; a problem of the platform
with details, if these can be read and, where its status is 500 or more, it can be described as
any other object. -/
inductive Describable : Thrown → Prop where
  | primitive {typeof text : Text} : Describable (.primitive typeof text)
  | unknown {o : ThrownObject}
      (hknown : o.isProblem = some false ∨
        (o.isProblem = some true ∧ o.problem = some .undefined))
      (hretry : RetryReadable o) (h : Described o) : Describable (.object o)
  | problem {o : ThrownObject} {d : Details} (hproblem : o.isProblem = some true)
      (hd : o.problem = some (.details d)) (hretry : RetryReadable o) (hreadable : d.Readable)
      (hserver : d.isServerProblem = some false ∨
        (d.isServerProblem = some true ∧ Described o ∧ d.responseCode.isSome)) :
      Describable (.object o)

/-- The response without the sink and the clock. -/
def responseTo (uuid : RandomUuid) (error : Thrown) (context : ProblemBoundaryContext) :
    Option ProblemResponse := do
  let known ← readKnown error
  let retryAfterSeconds ← readRetryAfter error
  let carried ← known.correlation_id
  if ← known.isUnexpected then
    let _ ← describeThrown error
    let _ ← known.orInternal.responseCode
  respond known.orInternal (pickCorrelationId uuid context carried) retryAfterSeconds

theorem map_fst_mapErrorToProblemResponse (uuid : RandomUuid) (error : Thrown)
    (context : ProblemBoundaryContext) (sink : Option (UnexpectedErrorSink σ)) (clock : Instant)
    (s : σ) :
    (mapErrorToProblemResponse uuid error context sink (some clock) s).map Prod.fst =
      responseTo uuid error context := by
  unfold mapErrorToProblemResponse responseTo
  simp only [Option.bind_eq_bind, Option.map_bind, Function.comp_def]
  refine Option.bind_congr fun known _ => Option.bind_congr fun retryAfterSeconds _ =>
    Option.bind_congr fun carried _ => Option.bind_congr fun unexpected _ => ?_
  cases unexpected with
  | false => simp [Option.map_bind]
  | true => simp [Option.map_bind]

theorem exists_readRetryAfter {o : ThrownObject} :
    (∃ r, readRetryAfter (.object o) = some r ∧ r.Printable) ↔ RetryReadable o := by
  simp only [readRetryAfter, Option.bind_eq_bind, Option.bind_eq_some_iff]
  constructor
  · rintro ⟨r, ⟨again, hagain, hr⟩, hprint⟩
    cases again with
    | false => exact .none hagain
    | true => exact .hint hagain hr hprint
  · intro h
    cases h with
    | none hagain => exact ⟨.undefined, ⟨false, hagain, rfl⟩, trivial⟩
    | hint hagain hr hprint => exact ⟨_, ⟨true, hagain, hr⟩, hprint⟩

theorem exists_retryHeader {r : RetryAfter} :
    (∃ headers, retryHeader r = some headers) ↔ r.Printable := by
  cases r with
  | undefined => simp [retryHeader, RetryAfter.Printable]
  | seconds text => cases text <;> simp [retryHeader, RetryAfter.Printable]

theorem exists_copyErrors {d : Details} : (∃ errors, copyErrors d = some errors) ↔
    d.errors = some .undefined ∨ (d.errors.isSome ∧ d.errorsAgain.isSome) := by
  simp only [copyErrors, Option.bind_eq_bind]
  cases d.errors with
  | none => simp
  | some errors =>
    by_cases hnone : errors = .undefined
    · simp [hnone]
    · cases d.errorsAgain <;> simp [hnone]

/-- A response is made of details that can be read. -/
theorem exists_respond {d : Details} {correlationId : Text} {r : RetryAfter} :
    (∃ response, respond d correlationId r = some response) ∧ d.correlation_id.isSome ↔
      d.Readable ∧ r.Printable := by
  simp only [respond, Option.bind_eq_bind, Option.bind_eq_some_iff]
  constructor
  · rintro ⟨⟨_, type, htype, title, htitle, status, hstatus, code, hcode, detail, hdetail, errors,
      herrors, last, hlast, headers, hheaders, -⟩, hcarried⟩
    exact ⟨⟨hcarried, by simp [htype], by simp [htitle], by simp [hstatus], by simp [hcode],
      by simp [hdetail], exists_copyErrors.mp ⟨errors, herrors⟩, by simp [hlast]⟩,
      exists_retryHeader.mp ⟨headers, hheaders⟩⟩
  · rintro ⟨h, hprint⟩
    obtain ⟨headers, hheaders⟩ := exists_retryHeader.mpr hprint
    obtain ⟨type, htype⟩ := Option.isSome_iff_exists.mp h.type
    obtain ⟨title, htitle⟩ := Option.isSome_iff_exists.mp h.title
    obtain ⟨status, hstatus⟩ := Option.isSome_iff_exists.mp h.status
    obtain ⟨code, hcode⟩ := Option.isSome_iff_exists.mp h.code
    obtain ⟨detail, hdetail⟩ := Option.isSome_iff_exists.mp h.detail
    obtain ⟨last, hlast⟩ := Option.isSome_iff_exists.mp h.statusAgain
    obtain ⟨errors, herrors⟩ := exists_copyErrors.mpr h.errors
    exact ⟨⟨_, type, htype, title, htitle, status, hstatus, code, hcode, detail, hdetail, errors,
      herrors, last, hlast, headers, hheaders, rfl⟩, h.correlation_id⟩

theorem internalError_readable : internalError.Readable :=
  ⟨rfl, rfl, rfl, rfl, rfl, rfl, .inl rfl, rfl⟩

/-- The parts of a run that returns. -/
theorem responseTo_eq_some_iff {response : ProblemResponse} :
    responseTo uuid error context = some response ↔
      ∃ known r carried unexpected, readKnown error = some known ∧
        readRetryAfter error = some r ∧ known.correlation_id = some carried ∧
        known.isUnexpected = some unexpected ∧
        (unexpected = true → (∃ evidence, describeThrown error = some evidence) ∧
          known.orInternal.responseCode.isSome) ∧
        respond known.orInternal (pickCorrelationId uuid context carried) r = some response := by
  simp only [responseTo, Option.bind_eq_bind, Option.bind_eq_some_iff]
  constructor
  · rintro ⟨known, hknown, r, hr, carried, hcarried, unexpected, hunexpected, h⟩
    refine ⟨known, r, carried, unexpected, hknown, hr, hcarried, hunexpected, ?_⟩
    cases unexpected with
    | false => exact ⟨by simp, h⟩
    | true =>
      simp only [if_true, Option.bind_eq_some_iff] at h
      obtain ⟨evidence, hevidence, code, hcode, h⟩ := h
      exact ⟨fun _ => ⟨⟨evidence, hevidence⟩, by simp [hcode]⟩, h⟩
  · rintro ⟨known, r, carried, unexpected, hknown, hr, hcarried, hunexpected, hreport, h⟩
    refine ⟨known, hknown, r, hr, carried, hcarried, unexpected, hunexpected, ?_⟩
    cases unexpected with
    | false => exact h
    | true =>
      obtain ⟨⟨evidence, hevidence⟩, hcode⟩ := hreport rfl
      obtain ⟨code, hcode⟩ := Option.isSome_iff_exists.mp hcode
      simp only [if_true, Option.bind_eq_some_iff]
      exact ⟨evidence, hevidence, code, hcode, h⟩

theorem readKnown_eq_some_iff {o : ThrownObject} {known : Known} :
    readKnown (.object o) = some known ↔ (o.isProblem = some false ∧ known = .undefined) ∨
      (o.isProblem = some true ∧ o.problem = some known) := by
  simp only [readKnown, Option.bind_eq_bind, Option.bind_eq_some_iff]
  constructor
  · rintro ⟨isProblem, hproblem, h⟩
    cases isProblem with
    | false =>
      cases h
      exact .inl ⟨hproblem, rfl⟩
    | true => exact .inr ⟨hproblem, h⟩
  · rintro (⟨hno, rfl⟩ | ⟨hyes, h⟩)
    · exact ⟨false, hno, rfl⟩
    · exact ⟨true, hyes, h⟩

/-- A response is returned if and only if the thrown value can be described. -/
theorem exists_responseTo (uuid : RandomUuid) (error : Thrown)
    (context : ProblemBoundaryContext) :
    (∃ response, responseTo uuid error context = some response) ↔ Describable error := by
  cases error with
  | primitive typeof text => exact ⟨fun _ => .primitive, fun _ => ⟨_, rfl⟩⟩
  | object o =>
    simp only [responseTo_eq_some_iff]
    constructor
    · rintro ⟨response, known, r, carried, unexpected, hknown, hr, hcarried, hunexpected, hreport,
        h⟩
      cases known with
      | null => cases hunexpected
      | undefined =>
        cases hunexpected
        have hreadable := exists_respond.mp ⟨⟨response, h⟩, rfl⟩
        refine .unknown ?_ (exists_readRetryAfter.mp ⟨r, hr, hreadable.2⟩)
          (exists_describeThrown.mp (hreport rfl).1)
        rcases readKnown_eq_some_iff.mp hknown with ⟨hno, -⟩ | hyes
        · exact .inl hno
        · exact .inr hyes
      | details d =>
        have hreadable := exists_respond.mp
          ⟨⟨response, h⟩, Option.isSome_iff_exists.mpr ⟨carried, hcarried⟩⟩
        obtain ⟨hyes, hd⟩ := (readKnown_eq_some_iff.mp hknown).resolve_left (by simp)
        refine .problem hyes hd (exists_readRetryAfter.mp ⟨r, hr, hreadable.2⟩) hreadable.1 ?_
        cases unexpected with
        | false => exact .inl hunexpected
        | true =>
          obtain ⟨hevidence, hcode⟩ := hreport rfl
          exact .inr ⟨hunexpected, exists_describeThrown.mp hevidence, hcode⟩
    · intro h
      cases h with
      | unknown hknown hretry h =>
        obtain ⟨r, hr, hprint⟩ := exists_readRetryAfter.mpr hretry
        have hundefined : readKnown (.object o) = some .undefined := by
          rcases hknown with hno | hyes
          · exact readKnown_eq_some_iff.mpr (.inl ⟨hno, rfl⟩)
          · exact readKnown_eq_some_iff.mpr (.inr hyes)
        obtain ⟨⟨response, hresponse⟩, -⟩ := (@exists_respond internalError
          (pickCorrelationId uuid context .undefined) r).mpr ⟨internalError_readable, hprint⟩
        exact ⟨response, .undefined, r, .undefined, true, hundefined, hr, rfl, rfl,
          fun _ => ⟨exists_describeThrown.mpr h, rfl⟩, hresponse⟩
      | @problem _ d hyes hd hretry hreadable hserver =>
        obtain ⟨r, hr, hprint⟩ := exists_readRetryAfter.mpr hretry
        obtain ⟨carried, hcarried⟩ := Option.isSome_iff_exists.mp hreadable.correlation_id
        obtain ⟨⟨response, hresponse⟩, -⟩ := (@exists_respond d
          (pickCorrelationId uuid context carried) r).mpr ⟨hreadable, hprint⟩
        have hknown : readKnown (.object o) = some (.details d) :=
          readKnown_eq_some_iff.mpr (.inr ⟨hyes, hd⟩)
        rcases hserver with hno | ⟨hserver, h, hcode⟩
        · exact ⟨response, .details d, r, carried, false, hknown, hr, hcarried, hno, by simp,
            hresponse⟩
        · exact ⟨response, .details d, r, carried, true, hknown, hr, hcarried, hserver,
            fun _ => ⟨exists_describeThrown.mpr h, hcode⟩, hresponse⟩

theorem exists_mapErrorToProblemResponse (uuid : RandomUuid) (error : Thrown)
    (context : ProblemBoundaryContext) (sink : Option (UnexpectedErrorSink σ)) (clock : Instant)
    (s : σ) :
    (∃ response s', mapErrorToProblemResponse uuid error context sink (some clock) s =
      some (response, s')) ↔ Describable error := by
  rw [← exists_responseTo uuid error context,
    ← map_fst_mapErrorToProblemResponse uuid error context sink clock s]
  simp [Option.map_eq_some_iff]

/-- An operation leaves the boundary by a value or a response unless it throws what cannot be
described. -/
theorem exists_runAtProblemBoundary {α : Type} {operation : Except Thrown α} :
    (∃ result s', runAtProblemBoundary uuid context operation sink (some clock) s =
      some (result, s')) ↔ ∀ error, operation = .error error → Describable error := by
  cases operation with
  | ok value => simp [runAtProblemBoundary]
  | error error =>
    simp only [runAtProblemBoundary, Option.bind_eq_bind, Option.bind_eq_some_iff,
      Except.error.injEq, forall_eq']
    rw [← exists_mapErrorToProblemResponse uuid error context sink clock s]
    constructor
    · rintro ⟨_, _, ⟨response, s'⟩, h, -⟩
      exact ⟨response, s', h⟩
    · rintro ⟨response, s', h⟩
      exact ⟨_, _, (response, s'), h, rfl⟩

end Returns

section Maps

theorem respond_correlation {d : Details} {correlationId : Text} {r : RetryAfter}
    {response : ProblemResponse} (h : respond d correlationId r = some response) :
    response.body.correlation_id = correlationId ∧
      response.headers.lookup CORRELATION_ID_HEADER = some correlationId := by
  simp only [respond, Option.bind_eq_bind, Option.bind_eq_some_iff] at h
  obtain ⟨_, -, _, -, _, -, _, -, _, -, _, -, _, -, _, -, h⟩ := h
  cases h
  have hother : (CORRELATION_ID_HEADER == ascii "content-type") = false := by decide +kernel
  exact ⟨rfl, by simp [List.lookup, hother]⟩

theorem responseTo_notPlatformProblem (h : NotPlatformProblem error) {response : ProblemResponse}
    (hresponse : responseTo uuid error context = some response) :
    response = internalErrorResponse (pickCorrelationId uuid context .undefined) := by
  obtain ⟨known, r, carried, unexpected, hknown, hr, hcarried, -, -, hrespond⟩ :=
    responseTo_eq_some_iff.mp hresponse
  have hplain : readKnown error = some .undefined ∧ readRetryAfter error = some .undefined := by
    cases error with
    | primitive typeof text => exact ⟨rfl, rfl⟩
    | object o =>
      obtain ⟨hfirst, hagain⟩ := h
      simp [readKnown, readRetryAfter, hfirst, hagain]
  rw [hplain.1] at hknown
  rw [hplain.2] at hr
  cases hknown
  cases hr
  cases hcarried
  exact (Option.some.inj hrespond).symm

/-- The boundary maps a thrown value: with every context, sink and working clock it returns a
response; the response has one valid correlation identifier; what is no problem of the platform
has the same response as anything else with this identifier; the sink has no part in it. -/
structure Maps (error : Thrown) : Prop where
  returns : ∀ (σ : Type) uuid context (sink : Option (UnexpectedErrorSink σ)) clock s,
    ∃ response s', mapErrorToProblemResponse uuid error context sink (some clock) s =
      some (response, s')
  correlation : ∀ (σ : Type) uuid context (sink : Option (UnexpectedErrorSink σ)) clock s
    response s', mapErrorToProblemResponse uuid error context sink (some clock) s =
      some (response, s') →
    response.headers.lookup CORRELATION_ID_HEADER = some response.body.correlation_id ∧
      TRACE_ID_PATTERN response.body.correlation_id = true
  internal : NotPlatformProblem error →
    ∀ (σ : Type) uuid context (sink : Option (UnexpectedErrorSink σ)) clock s response s',
      mapErrorToProblemResponse uuid error context sink (some clock) s = some (response, s') →
        response = internalErrorResponse (pickCorrelationId uuid context .undefined)
  sink : ∀ (σ σ' : Type) uuid context (sink : Option (UnexpectedErrorSink σ))
    (sink' : Option (UnexpectedErrorSink σ')) clock clock' s s',
    (mapErrorToProblemResponse uuid error context sink (some clock) s).map Prod.fst =
      (mapErrorToProblemResponse uuid error context sink' (some clock') s').map Prod.fst

/-- The boundary maps a thrown value if and only if it can be described. -/
theorem maps_iff_describable (error : Thrown) : Maps error ↔ Describable error := by
  have hreturned : ∀ {σ : Type} {uuid : RandomUuid} {context : ProblemBoundaryContext}
      {sink : Option (UnexpectedErrorSink σ)} {clock : Instant} {s s' : σ}
      {response : ProblemResponse},
      mapErrorToProblemResponse uuid error context sink (some clock) s = some (response, s') →
        responseTo uuid error context = some response := by
    intro σ uuid context sink clock s s' response h
    rw [← map_fst_mapErrorToProblemResponse uuid error context sink clock s, h]
    rfl
  constructor
  · intro h
    exact (exists_mapErrorToProblemResponse default error ⟨.undefined, .undefined, .undefined⟩
      none ⟨0, by decide⟩ ()).mp (h.returns Unit default _ none _ ())
  · intro h
    refine ⟨?_, ?_, ?_, ?_⟩
    · intro σ uuid context sink clock s
      exact (exists_mapErrorToProblemResponse uuid error context sink clock s).mpr h
    · intro σ uuid context sink clock s response s' hmap
      obtain ⟨known, r, carried, unexpected, -, -, -, -, -, hrespond⟩ :=
        responseTo_eq_some_iff.mp (hreturned hmap)
      obtain ⟨hbody, hheader⟩ := respond_correlation hrespond
      rw [hbody]
      exact ⟨hheader, TRACE_ID_PATTERN_pickCorrelationId uuid context carried⟩
    · intro hnot σ uuid context sink clock s response s' hmap
      exact responseTo_notPlatformProblem hnot (hreturned hmap)
    · intro σ σ' uuid context sink sink' clock clock' s s'
      rw [map_fst_mapErrorToProblemResponse, map_fst_mapErrorToProblemResponse]

/-- `Object.create(null)`: it has no method that makes a text of it. -/
def nullPrototype : ThrownObject where
  isProblem := some false
  problem := some .undefined
  isProblemAgain := some false
  retryAfterSeconds := some .undefined
  isError := some false
  name := some .undefined
  message := some (.other none)
  hasStack := some false
  stack := some (.other none)
  typeof := ascii "object"
  text := none

theorem not_maps_nullPrototype : ¬Maps (.object nullPrototype) := by
  intro h
  obtain ⟨response, s', hmap⟩ := h.returns Unit default ⟨.undefined, .undefined, .undefined⟩ none
    ⟨0, by decide⟩ ()
  cases hmap

end Maps

end Sintius.Boundary
