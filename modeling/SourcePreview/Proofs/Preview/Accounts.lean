import SourcePreview.Proofs.Preview.Replies
import Mathlib.Logic.Relation

/-!
# Counters account for every request

A request ends in one of six ways, each of which moves other counters.  Together the counters say
how the requests of a process ended: every request was found in the cache, or was given to the
highlighter, or needed no highlighter because its language has no rules or it has too many lines.  A
request that the highlighter was called for in vain counts as highlighted and as degraded.

What the counters count does not depend on the cache, which may change between two requests in any
way, nor on the tree, nor on what the highlighter does with a text, which may be something else
every time.
-/

namespace SourcePreview

/-- Whether a request had more lines than it allows. -/
def Status.isTooLong : Status → Bool
  | .degraded (.tooManyLines _ _) => true
  | _ => false

namespace Counters

/-- The counters after a request was made. -/
def ask (counters : Counters) : Counters :=
  { counters with requests := counters.requests + 1 }

/-- The counters after a request ended in some way. -/
def note (counters : Counters) : Status → Counters
  | .cacheHit _ => { counters with cacheHits := counters.cacheHits + 1 }
  | .highlighted => { counters with highlights := counters.highlights + 1 }
  | .unsupported => counters
  | .degraded (.tooManyLines _ _) => { counters with degraded := counters.degraded + 1 }
  | .degraded .deadlineExceeded =>
    { counters with
      highlights := counters.highlights + 1
      degraded := counters.degraded + 1 }

/-- Whether counters say how requests ended. -/
structure Account (counters : Counters) (ends : List Status) : Prop where
  requests : counters.requests = ends.length
  cacheHits : counters.cacheHits = ends.countP Status.isCacheHit
  highlights :
    counters.highlights =
      ends.count .highlighted + ends.count (.degraded .deadlineExceeded)
  degraded :
    counters.degraded =
      ends.countP Status.isTooLong + ends.count (.degraded .deadlineExceeded)

theorem account_zero : Account .zero [] :=
  ⟨rfl, rfl, rfl, rfl⟩

/-- One more request is accounted for once its end is noted. -/
theorem Account.note
    {counters : Counters} {ends : List Status} (account : counters.Account ends)
    (status : Status) :
    (counters.ask.note status).Account (status :: ends) := by
  obtain ⟨requests, cacheHits, highlights, degraded⟩ := account
  rcases status with _ | _ | _ | _ | _
  all_goals
    refine ⟨congrArg (· + 1) requests, ?_, ?_, ?_⟩
    all_goals
      simp only [ask, Counters.note, cacheHits, highlights, degraded, List.countP_cons,
        List.count_cons]
      simp [Status.isCacheHit, Status.isTooLong] <;> omega

/-- Every request ends in exactly one way. -/
theorem length_eq_counts (ends : List Status) :
    ends.length =
      ends.countP Status.isCacheHit +
        (ends.count .highlighted + ends.count (.degraded .deadlineExceeded)) +
        ends.count .unsupported + ends.countP Status.isTooLong := by
  induction ends with
  | nil => rfl
  | cons status ends ih =>
      simp only [List.length_cons, List.countP_cons, List.count_cons]
      rcases status with _ | _ | _ | _ | _
      all_goals
        simp [Status.isCacheHit, Status.isTooLong]
        omega

/-- The requests are those that were found, those that the highlighter was called for, and those
that it was not called for. -/
theorem Account.requests_eq
    {counters : Counters} {ends : List Status} (account : counters.Account ends) :
    counters.requests =
      counters.cacheHits + counters.highlights + ends.count .unsupported +
        ends.countP Status.isTooLong := by
  rw [account.requests, account.cacheHits, account.highlights]
  exact length_eq_counts ends

end Counters

/-- Whether an outcome shows that a request was degraded: its preview says so exactly if the request
ended so, and then it is the text of the request without spans. -/
structure Outcome.Shows (outcome : Outcome) (request : Request) : Prop where
  degraded : outcome.styled.degraded = outcome.status.isDegraded
  plain : outcome.status.isDegraded = true →
    outcome.styled.spans = [] ∧ outcome.styled.text = request.text

theorem Request.shows_uncached
    (request : Request) (highlighter : Highlighter) (palette : Palette) :
    (request.uncached highlighter palette).Shows request := by
  refine ⟨?_, fun isDegraded => ⟨?_, text_uncached request highlighter palette⟩⟩
  · unfold uncached
    dsimp only
    repeat' split
    all_goals rfl
  · revert isDegraded
    unfold uncached
    dsimp only
    repeat' split
    all_goals
      intro isDegraded
      first
        | rfl
        | cases isDegraded

namespace Previewer

variable
    {previewer after : Previewer} {tree changed : FileTree} {request : Request}
    {outcome : Outcome}

theorem counters_palette (previewer : Previewer) (tree : FileTree) (id : String) :
    (previewer.palette tree id).1.counters = previewer.counters := by
  obtain ⟨palettes, same⟩ := exists_palette_fst_eq previewer tree id
  rw [same]

theorem counters_highlight (previewer : Previewer) (request : Request) (palette : Palette) :
    (previewer.highlight request palette).1.counters =
      previewer.counters.note (previewer.highlight request palette).2.status := by
  unfold highlight
  dsimp only
  split <;> rfl

theorem counters_compute (previewer : Previewer) (tree : FileTree) (request : Request) :
    (previewer.compute tree request).1.counters =
      previewer.counters.note (previewer.compute tree request).2.status := by
  have asked := counters_palette previewer tree request.themeId
  unfold compute
  dsimp only
  rw [← asked]
  split
  · rfl
  split
  · rfl
  · exact counters_highlight _ request _

/-- An answer counts the request and how it ended. -/
theorem counters_answer (previewer : Previewer) (tree : FileTree) (request : Request) :
    (previewer.answer tree request).1.counters =
      previewer.counters.ask.note (previewer.answer tree request).2.2.status := by
  unfold answer
  dsimp only
  split
  · rfl
  · exact counters_compute _ _ request

/-- A preview counts what its answer counts: nothing is counted when it is written to disk. -/
theorem counters_preview (previewer : Previewer) (tree : FileTree) (request : Request) :
    (previewer.preview tree request).1.counters =
      previewer.counters.ask.note (previewer.preview tree request).2.2.status := by
  have same :
      (previewer.preview tree request).2.2 = (previewer.answer tree request).2.2 := rfl
  rw [same, ← counters_answer]
  unfold preview persist
  dsimp only
  split <;> rfl

/-- An outcome that is not from the cache shows whether the request was degraded. -/
theorem shows_preview
    (previewer : Previewer) (tree : FileTree) (request : Request)
    (notHit : (previewer.preview tree request).2.2.status.isCacheHit = false) :
    (previewer.preview tree request).2.2.Shows request := by
  have same :
      (previewer.preview tree request).2.2 = (previewer.answer tree request).2.2 := rfl
  rw [same] at notHit ⊢
  rcases answers : previewer.answer tree request with ⟨after, changed, outcome⟩
  rw [answers] at notHit
  obtain ⟨-, ⟨tier, hit, -⟩ | ⟨cache, -, made, -⟩⟩ := answer_spec answers
  · rw [hit] at notHit
    cases notHit
  · rw [made]
    exact request.shows_uncached _ _

end Previewer

/-- A process with the requests that it has answered so far and how each of them ended, the latest
first. -/
structure Ledger where
  previewer : Previewer
  answered : List (Request × Outcome)

namespace Ledger

/-- A process that was asked nothing yet, with a cache of any kind. -/
def fresh (environment : Environment) (highlighter : Highlighter) (cache : Cache) : Ledger :=
  ⟨⟨environment, highlighter, cache, [], .zero⟩, []⟩

/-- The process makes a preview while some highlighter works on its text, and notes the outcome. -/
def ask (ledger : Ledger) (tree : FileTree) (request : Request) (highlighter : Highlighter) :
    Ledger :=
  let reply := { ledger.previewer with highlighter }.preview tree request
  ⟨reply.1, (request, reply.2.2) :: ledger.answered⟩

/-- How the requests ended, the latest first. -/
def ends (ledger : Ledger) : List Status :=
  ledger.answered.map fun answer => answer.2.status

/-- What may happen next: the process makes a preview, whatever is in the tree, or something else is
done with its cache. -/
inductive Step : Ledger → Ledger → Prop where
  | ask (ledger : Ledger) (tree : FileTree) (request : Request) (highlighter : Highlighter) :
      Step ledger (ledger.ask tree request highlighter)
  | use (ledger : Ledger) (cache : Cache) :
      Step ledger { ledger with previewer := { ledger.previewer with cache } }

/-- Whether the counters say how all requests ended, and the outcomes that are not from the cache
show which of them were degraded. -/
structure Balances (ledger : Ledger) : Prop where
  account : ledger.previewer.counters.Account ledger.ends
  shows : ∀ answer ∈ ledger.answered,
    answer.2.status.isCacheHit = false → answer.2.Shows answer.1

theorem balances_fresh
    (environment : Environment) (highlighter : Highlighter) (cache : Cache) :
    (fresh environment highlighter cache).Balances :=
  ⟨Counters.account_zero, fun _ none => absurd none List.not_mem_nil⟩

theorem Balances.step
    {ledger next : Ledger} (balances : ledger.Balances) (step : Step ledger next) :
    next.Balances := by
  cases step with
  | use cache => exact ⟨balances.account, balances.shows⟩
  | ask tree request highlighter =>
      refine ⟨?account, ?shows⟩
      case account =>
        have counted :=
          Previewer.counters_preview { ledger.previewer with highlighter } tree request
        rw [ask]
        dsimp only
        rw [counted]
        exact balances.account.note _
      case shows =>
        intro answer member notHit
        rcases List.mem_cons.mp member with rfl | earlier
        · exact Previewer.shows_preview { ledger.previewer with highlighter } tree request notHit
        · exact balances.shows answer earlier notHit

theorem balances_of_run
    {environment : Environment} {highlighter : Highlighter} {cache : Cache} {ledger : Ledger}
    (run : Relation.ReflTransGen Step (fresh environment highlighter cache) ledger) :
    ledger.Balances := by
  induction run with
  | refl => exact balances_fresh environment highlighter cache
  | tail _ step ih => exact ih.step step

/-- After any requests the counters say how many there were and how they ended: those that were
found in the cache, those that the highlighter was called for, and those that it was not called for
are all of them.  A preview that is not from the cache says that it is degraded exactly if its
request ended so, and is then the text of the request without spans. -/
theorem counters_of_run
    {environment : Environment} {highlighter : Highlighter} {cache : Cache} {ledger : Ledger}
    (run : Relation.ReflTransGen Step (fresh environment highlighter cache) ledger) :
    let counters := ledger.previewer.counters
    let ends := ledger.ends
    counters.requests = ledger.answered.length ∧
      counters.cacheHits = ends.countP Status.isCacheHit ∧
      counters.highlights =
        ends.count .highlighted + ends.count (.degraded .deadlineExceeded) ∧
      counters.degraded =
        ends.countP Status.isTooLong + ends.count (.degraded .deadlineExceeded) ∧
      counters.requests =
        counters.cacheHits + counters.highlights + ends.count .unsupported +
          ends.countP Status.isTooLong ∧
      ∀ request outcome,
        (request, outcome) ∈ ledger.answered → outcome.status.isCacheHit = false →
          outcome.styled.degraded = outcome.status.isDegraded ∧
            (outcome.status.isDegraded = true →
              outcome.styled.spans = [] ∧ outcome.styled.text = request.text) := by
  obtain ⟨account, shows⟩ := balances_of_run run
  refine
    ⟨account.requests.trans (List.length_map _), account.cacheHits, account.highlights,
      account.degraded, account.requests_eq, ?_⟩
  intro request outcome member notHit
  obtain ⟨degraded, plain⟩ := shows (request, outcome) member notHit
  exact ⟨degraded, plain⟩

/-- A highlighter that does the same with every text, but knows no Markdown. -/
def sampleHighlighter (work : Work) : Highlighter :=
  ⟨fun language => language ≠ .markdown, fun _ _ _ => work⟩

/-- A request for a preview of a text of one line. -/
def sampleRequest (language : Language) (maxLines : Nat) : Request :=
  ⟨.ofString "a", "1", ⟨0⟩, "dark", some language, .unlimited, maxLines⟩

/-- The process makes several previews. -/
def askEach (ledger : Ledger) (tree : FileTree) (asks : List (Request × Highlighter)) : Ledger :=
  asks.foldl (fun ledger ask => ledger.ask tree ask.1 ask.2) ledger

theorem runs_askEach (ledger : Ledger) (tree : FileTree) (asks : List (Request × Highlighter)) :
    Relation.ReflTransGen Step ledger (ledger.askEach tree asks) := by
  induction asks generalizing ledger with
  | nil => exact .refl
  | cons ask asks ih => exact .head (.ask ledger tree ask.1 ask.2) (ih _)

/-- Requests that end in all ways when nothing is in the cache at first. -/
def sampleAsks : List (Request × Highlighter) :=
  [(sampleRequest .yaml 1, sampleHighlighter .failed),
    (sampleRequest .yaml 1, sampleHighlighter .overran),
    (sampleRequest .yaml 0, sampleHighlighter .stopped),
    (sampleRequest .markdown 1, sampleHighlighter .stopped),
    (sampleRequest .json 1, sampleHighlighter (.finished [⟨0, 1, .number⟩])),
    (sampleRequest .json 1, sampleHighlighter .failed)]

/-- A process without a disk tier that has answered these requests. -/
def sample : Ledger :=
  (fresh ⟨none, none, none, none, none⟩ .patterns ⟨.empty 8, none⟩).askEach (.empty ⟨0⟩)
    sampleAsks

theorem runs_sample :
    Relation.ReflTransGen Step
      (fresh ⟨none, none, none, none, none⟩ .patterns ⟨.empty 8, none⟩) sample :=
  runs_askEach _ _ sampleAsks

/-- Of six requests one is found, three are given to the highlighter, two of them in vain, one is
too long and one is not supported. -/
theorem counters_of_run_sample :
    sample.previewer.counters = ⟨6, 1, 3, 3⟩ ∧
      sample.ends.count (.degraded .deadlineExceeded) = 2 ∧
      sample.previewer.counters.requests =
        sample.previewer.counters.cacheHits + sample.previewer.counters.highlights +
          sample.ends.count .unsupported + sample.ends.countP Status.isTooLong := by
  obtain ⟨-, -, -, -, balance, -⟩ := counters_of_run runs_sample
  have counted :
      sample.previewer.counters = ⟨6, 1, 3, 3⟩ ∧
        sample.ends.count (.degraded .deadlineExceeded) = 2 := by
    decide +kernel
  exact ⟨counted.1, counted.2, balance⟩

end Ledger

end SourcePreview
