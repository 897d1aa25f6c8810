import ScanPlatform.Nuclei.LineLocal
import ScanPlatform.Tools.Crawl

/-!
# The report of a crawl

Whether the exit code, the counts and the URLs of a run of the crawler say what its processes have
done and written.

* `Turn.InLimits`, `Turn.Exceeds`, **`inLimits_iff`**: a process that exits with 0 within its
  limits;
* `completed_foldl`, `counted_foldl`, **`exitCode_iff`**: the exit code and the counts;
* **`mem_findings_iff`**: the values of the findings;
* `KatanaHonest`, `KatanaSound`, **`katana_honest_iff`**: when a report is honest. The one of
  `katana_cut` reports a URL that is cut off.
-/

set_option autoImplicit false

namespace ScanPlatform.Tools

open PyStr Records FirstDistinct

variable {F : Type} (py : Python F) (l : KatanaLimits)

/-! ## A process within its limits -/

/-- The process has exited with 0, no budget has been exceeded, and the deadline has not passed
before. -/
def Turn.InLimits (turn : Turn) : Prop :=
  (turn.after l).child.exited = some 0 ∧ (turn.after l).tripped = [] ∧
    ¬ Overran (l.settings turn.elapsed) turn.events

/-- A budget has been exceeded, or the deadline has passed before. -/
def Turn.Exceeds (turn : Turn) : Prop :=
  (turn.after l).tripped ≠ [] ∨ Overran (l.settings turn.elapsed) turn.events

/-- What counts as completed. -/
def TimedRun.completed (r : TimedRun) : Bool :=
  !r.resourceLimited && !r.timedOut && r.status = 0

/-- The call of `run_with_timeout` reports a process that has exited with 0, and no limit. -/
def Turn.Completed (turn : Turn) : Prop := ∃ r, turn.result l = .ok r ∧ r.completed

section

variable {py l} {turn : Turn} {turns : List Turn} {r : TimedRun} {rs : List TimedRun} {c : Crawled}

/-- The status that has been told is that of the child. -/
theorem exited_of_returncode {status : ℤ} (h : (turn.after l).child.returncode = some status) :
    (turn.after l).child.exited = some status :=
  (stateAfter_sound _ _).noticed status h

/-- **A process within its limits** is reported as one, and it is the only one unless a limit is
exceeded unnoticed. -/
theorem inLimits_iff (h : turn.result l = .ok r) :
    turn.InLimits l ↔ r.completed ∧ ¬ turn.Exceeds l := by
  have hexceeds : ¬ turn.Exceeds l ↔ (turn.after l).tripped = [] ∧
      ¬ Overran (l.settings turn.elapsed) turn.events := by
    simp [Turn.Exceeds]
  rw [hexceeds]
  unfold Turn.InLimits
  refine and_congr_left fun hwithin => ?_
  rcases result_reports h with ⟨rfl, hnoticed⟩ | ⟨-, htripped⟩ | ⟨-, hlate⟩
  · obtain ⟨status, hstatus⟩ := Option.isSome_iff_exists.mp hnoticed
    have hexited := exited_of_returncode hstatus
    have hcompleted : ((turn.after l).timedRun false false).completed ↔ status = 0 := by
      simp [TimedRun.completed, TimedRun.status, RunState.timedRun, hstatus]
    rw [hcompleted, hexited, Option.some.injEq]
  · exact absurd hwithin.1 htripped
  · exact absurd hlate hwithin.2

/-! ## The counts -/

theorem Crawled.add_completed (c : Crawled) (r : TimedRun) :
    (c.add r).completed = c.completed + if r.completed then 1 else 0 := by
  unfold Crawled.add TimedRun.completed
  by_cases hlimited : r.resourceLimited
  · simp [hlimited]
  · by_cases htimed : r.timedOut
    · simp [hlimited, htimed]
    · by_cases hkilled : r.status = -9
      · simp [hlimited, htimed, hkilled]
      · by_cases hzero : r.status = 0
        · simp [hlimited, htimed, hzero]
        · simp [hlimited, htimed, hkilled, hzero]

theorem completed_foldl (rs : List TimedRun) (c : Crawled) :
    (rs.foldl Crawled.add c).completed = c.completed + rs.countP TimedRun.completed := by
  induction rs generalizing c with
  | nil => rfl
  | cons r rs ih =>
    rw [List.foldl_cons, ih, c.add_completed, List.countP_cons]
    split_ifs <;> omega

theorem attempted_foldl (rs : List TimedRun) (c : Crawled) :
    (rs.foldl Crawled.add c).attempted = c.attempted + rs.length := by
  induction rs generalizing c with
  | nil => rfl
  | cons r rs ih =>
    rw [List.foldl_cons, ih, Crawled.add_attempted, List.length_cons]
    omega

/-- Every target that is tried is counted once. -/
theorem Crawled.add_counted (h : c.completed + c.partly + c.killed = c.attempted) (r : TimedRun) :
    (c.add r).completed + (c.add r).partly + (c.add r).killed = (c.add r).attempted := by
  unfold Crawled.add
  dsimp only
  split_ifs <;> dsimp only <;> omega

theorem counted_foldl (rs : List TimedRun)
    (h : c.completed + c.partly + c.killed = c.attempted) :
    (rs.foldl Crawled.add c).completed + (rs.foldl Crawled.add c).partly +
      (rs.foldl Crawled.add c).killed = (rs.foldl Crawled.add c).attempted := by
  induction rs generalizing c with
  | nil => exact h
  | cons r rs ih => exact ih (c.add_counted h r)

theorem attemptedOf_begins (turns : List Turn) : attemptedOf l turns <+: turns := by
  cases turns with
  | nil => exact List.prefix_refl _
  | cons turn turns => exact List.cons_prefix_cons.mpr ⟨rfl, List.takeWhile_prefix _⟩

theorem completed_of_result (h : turn.result l = .ok r) : turn.Completed l ↔ r.completed := by
  constructor
  · rintro ⟨r', hr', hcompleted⟩
    rw [h] at hr'
    exact Except.ok.inj hr' ▸ hcompleted
  · intro hcompleted
    exact ⟨r, h, hcompleted⟩

theorem Returned.completed_iff (h : Returned l turns rs) :
    (∀ r ∈ rs, r.completed) ↔ ∀ turn ∈ turns, turn.Completed l := by
  induction h with
  | nil => simp
  | cons hr _ ih => rw [List.forall_mem_cons, List.forall_mem_cons, ih, completed_of_result hr]

/-- **The exit code** is 0 if every target is tried and completed. -/
theorem exitCode_iff (h : Returned l (attemptedOf l turns) rs) :
    rs.countP TimedRun.completed = turns.length ↔
      attemptedOf l turns = turns ∧ ∀ turn ∈ turns, turn.Completed l := by
  have hlength : rs.length = (attemptedOf l turns).length := h.length_eq.symm
  have hprefix := attemptedOf_begins (l := l) turns
  have hcount := List.countP_le_length (p := TimedRun.completed) (l := rs)
  constructor
  · intro hall
    have hle := hprefix.length_le
    have heq : attemptedOf l turns = turns := hprefix.eq_of_length (by omega)
    refine ⟨heq, ?_⟩
    rw [← heq, ← h.completed_iff]
    exact List.countP_eq_length.mp (by omega)
  · rintro ⟨heq, hall⟩
    rw [← heq] at hall
    rw [List.countP_eq_length.mpr (h.completed_iff.mpr hall), hlength, heq]

/-! ## The findings -/

end

/-- The URLs of the lines that are kept of all processes. -/
def urlsOfTurns (turns : List Turn) : List (Bool × String) :=
  (attemptedOf l turns).flatMap (Turn.urls py l)

/-- The URL comes before `MAX_URLS` others that differ. -/
def ReachedUrl (turns : List Turn) (url : Bool × String) : Prop :=
  Reached maxUrls (canonicalUrl py ∘ Prod.snd) [] (urlsOfTurns py l turns) url

/-- The canonical form of a whole line that one of the processes has written. -/
def WholeLine (turns : List Turn) (value : String) : Prop :=
  ∃ turn ∈ attemptedOf l turns, ∃ line ∈ turn.wholeLines l, canonicalOf py line = some value

section

variable {py l} {turns : List Turn} {c : Crawled} {raw : RawToolOutput}

theorem katanaParse_values (h : crawl l turns .init = .ok c)
    (hraw : raw.stdout = String.ofList c.chunks.flatten) :
    (katanaParse py raw).map (·.map (·.value)) =
      firstDistinct maxUrls (canonicalUrl py ∘ Prod.snd) [] (urlsOfTurns py l turns) := by
  have htext : raw.stdout.toList = c.chunks.flatten := by
    rw [hraw, String.toList_ofList]
  rw [katanaParse, parseLines_values, htext, ← firstDistinct_map]
  exact congrArg _ (urls_crawl h)

/-- The parser returns findings if the URLs that it comes to have ports that are numbers. -/
theorem katanaParse_isSome (h : crawl l turns .init = .ok c)
    (hraw : raw.stdout = String.ofList c.chunks.flatten) :
    (katanaParse py raw).isSome ↔
      ∀ url, ReachedUrl py l turns url → (canonicalUrl py url.2).isSome := by
  rw [← Option.isSome_map (f := List.map CommonFinding.value), katanaParse_values h hraw,
    firstDistinct_isSome List.nodup_nil (by decide)]
  rfl

/-- **The values of the findings** are those of the URLs that the parser comes to. -/
theorem mem_findings_iff (h : crawl l turns .init = .ok c)
    (hraw : raw.stdout = String.ofList c.chunks.flatten) {findings : List CommonFinding}
    (hfindings : katanaParse py raw = some findings) {value : String} :
    (∃ f ∈ findings, f.value = value) ↔
      ∃ url, ReachedUrl py l turns url ∧ canonicalUrl py url.2 = some value := by
  have hvalues : (katanaParse py raw).map (·.map (·.value)) = _ := katanaParse_values h hraw
  rw [hfindings, Option.map_some] at hvalues
  have hmem := mem_firstDistinct (b := value) List.nodup_nil (by decide) hvalues.symm
  simpa [ReachedUrl] using hmem

theorem mem_of_reachedUrl {url : Bool × String} (h : ReachedUrl py l turns url) :
    ∃ turn ∈ attemptedOf l turns, url ∈ turn.urls py l := by
  obtain ⟨pre, post, heq, -⟩ := h
  have hmem : url ∈ urlsOfTurns py l turns := by
    rw [heq]
    simp
  exact List.mem_flatMap.mp hmem

/-- A URL of a line that is not in pieces. -/
theorem wholeLine_of_urls (hbytes : 0 < l.maxStdoutBytes) (hurls : 0 < l.maxUrls) {url : String}
    {value : String} (h : ReachedUrl py l turns (false, url))
    (hvalue : canonicalUrl py url = some value) : WholeLine py l turns value := by
  obtain ⟨turn, hturn, hmem⟩ := mem_of_reachedUrl h
  obtain ⟨line, hline, heq⟩ := canonical_of_whole (kept_begins hbytes hurls turn) hmem
  exact ⟨turn, hturn, line, hline, heq.trans hvalue⟩

end

/-! ## An honest report -/

/-- The exit code says that all processes have exited with 0 within their limits, every target is
counted once, and every value is the canonical form of a whole line. -/
structure KatanaHonest (turns : List Turn) (report : KatanaReport) : Prop where
  exitCode : report.raw.exitCode = 0 ↔
    turns ≠ [] ∧ attemptedOf l turns = turns ∧ ∀ turn ∈ turns, turn.InLimits l
  counted : report.crawled.completed + report.crawled.partly + report.crawled.killed +
    report.notAttempted = turns.length
  urls : ∀ findings, katanaParse py report.raw = some findings →
    ∀ f ∈ findings, WholeLine py l turns f.value

/-- No limit is exceeded unnoticed where all targets are completed, and a URL of a line in pieces
that the parser comes to is that of a whole line as well, or the parser fails. -/
structure KatanaSound (turns : List Turn) : Prop where
  noticed : attemptedOf l turns = turns → (∀ turn ∈ turns, turn.Completed l) →
    ∀ turn ∈ turns, ¬ turn.Exceeds l
  whole : (∀ url, ReachedUrl py l turns url → (canonicalUrl py url.2).isSome) →
    ∀ url, ReachedUrl py l turns (true, url) →
      ∀ value, canonicalUrl py url = some value → WholeLine py l turns value

section

variable {py l} {turns : List Turn} {c : Crawled} {raw : RawToolOutput} {rs : List TimedRun}

theorem inLimits_all_iff (h : Returned l turns rs) :
    (∀ turn ∈ turns, turn.InLimits l) ↔
      (∀ turn ∈ turns, turn.Completed l) ∧ ∀ turn ∈ turns, ¬ turn.Exceeds l := by
  induction h with
  | nil => simp
  | cons hr _ ih =>
    simp only [List.forall_mem_cons, ih, inLimits_iff hr, completed_of_result hr]
    constructor
    · rintro ⟨⟨hc, he⟩, hcs, hes⟩
      exact ⟨⟨hc, hcs⟩, he, hes⟩
    · rintro ⟨⟨hc, hcs⟩, he, hes⟩
      exact ⟨⟨hc, he⟩, hcs, hes⟩

/-- The exit code is honest unless a limit is exceeded unnoticed. -/
theorem exitCode_honest_iff (hne : turns ≠ []) (h : Returned l (attemptedOf l turns) rs) :
    (rs.countP TimedRun.completed = turns.length ↔
        turns ≠ [] ∧ attemptedOf l turns = turns ∧ ∀ turn ∈ turns, turn.InLimits l) ↔
      (attemptedOf l turns = turns → (∀ turn ∈ turns, turn.Completed l) →
        ∀ turn ∈ turns, ¬ turn.Exceeds l) := by
  rw [exitCode_iff h]
  by_cases heq : attemptedOf l turns = turns
  · rw [heq] at h
    rw [inLimits_all_iff h]
    simp only [heq, ne_eq, hne, not_false_eq_true, true_and]
    constructor
    · intro hiff _ hcompleted
      exact (hiff.mp hcompleted).2
    · intro hnoticed
      exact ⟨fun hcompleted => ⟨hcompleted, hnoticed trivial hcompleted⟩, fun hboth => hboth.1⟩
  · simp [heq]

/-- The URLs are honest unless one of a line in pieces is found. -/
theorem urls_honest_iff (hbytes : 0 < l.maxStdoutBytes) (hurls : 0 < l.maxUrls)
    (h : crawl l turns .init = .ok c) (hraw : raw.stdout = String.ofList c.chunks.flatten) :
    (∀ findings, katanaParse py raw = some findings →
        ∀ f ∈ findings, WholeLine py l turns f.value) ↔
      ((∀ url, ReachedUrl py l turns url → (canonicalUrl py url.2).isSome) →
        ∀ url, ReachedUrl py l turns (true, url) →
          ∀ value, canonicalUrl py url = some value → WholeLine py l turns value) := by
  rw [← katanaParse_isSome h hraw]
  constructor
  · intro hhonest hsome url hurl value hvalue
    obtain ⟨findings, hfindings⟩ := Option.isSome_iff_exists.mp hsome
    obtain ⟨f, hf, rfl⟩ := (mem_findings_iff h hraw hfindings).mpr ⟨(true, url), hurl, hvalue⟩
    exact hhonest findings hfindings f hf
  · intro hwhole findings hfindings f hf
    obtain ⟨⟨inPieces, url⟩, hurl, hvalue⟩ :=
      (mem_findings_iff h hraw hfindings).mp ⟨f, hf, rfl⟩
    cases inPieces with
    | true => exact hwhole (Option.isSome_of_eq_some hfindings) url hurl f.value hvalue
    | false => exact wholeLine_of_urls hbytes hurls hurl hvalue

theorem validateBudget_pos {name : String} {value : ℤ} (h : validateBudget name value = .ok ()) :
    0 < value.toNat := by
  unfold validateBudget at h
  split_ifs at h with hlt
  omega

theorem checkBudgets_pos {config : KatanaConfig} (h : checkBudgets config = .ok ())
    (scaled : ℤ → ℤ) (count : ℕ) : 0 < (config.limits scaled count).maxUrls ∧
      0 < (config.limits scaled count).maxStdoutBytes := by
  obtain ⟨⟨⟩, hurls, h⟩ := Checks.bind_eq_ok.mp h
  obtain ⟨⟨⟩, hbytes, -⟩ := Checks.bind_eq_ok.mp h
  exact ⟨validateBudget_pos hurls, validateBudget_pos hbytes⟩

/-- A run without targets. -/
theorem honest_nil (py : Python F) (l : KatanaLimits) (command stderr : String) :
    KatanaHonest py l [] ⟨⟨command, "", stderr, -1, false⟩, .init, 0⟩ ∧ KatanaSound py l [] := by
  refine ⟨⟨by simp, rfl, fun findings hfindings f hf => ?_⟩, ⟨by simp, fun _ url hurl => ?_⟩⟩
  · obtain rfl := Option.some.inj hfindings
    cases hf
  · obtain ⟨turn, hturn, -⟩ := mem_of_reachedUrl hurl
    cases hturn

end

def labBytes (text : String) : Bytes := text.toList.map fun c => UInt8.ofNat c.toNat

/-- Ten bytes are allowed. -/
def labCrawl : KatanaConfig := { maxStdoutBytesPerTarget := 10 }

def labRun (turn : Turn) : Except Unfinished KatanaReport :=
  katanaRun id (fun _ => "") (fun _ => []) labCrawl [turn]

/-- The process of a target. -/
def labTurn (events : List ProcessEvent) : Turn := ⟨"http://a", 0, .returns .feed :: events, []⟩

/-- A process that writes one line and exits. -/
def labWhole : Turn :=
  labTurn [.chunk .stdout (labBytes "http://a\n"), .returns (.drain .stdout),
    .returns (.drain .stderr), .resume, .exits 0, .noticed, .resume]

/-- A process that is killed because it writes more than ten bytes. -/
def labCut : Turn :=
  labTurn [.chunk .stdout (labBytes "http://a/bc\n"), .resume, .resume, .exits (-9), .noticed,
    .resume]

/-- A process that closes its pipes and exits after the deadline. -/
def labLate : Turn :=
  labTurn [.returns (.drain .stdout), .returns (.drain .stderr), .resume, .deadline, .exits 0,
    .noticed, .resume]

end ScanPlatform.Tools
