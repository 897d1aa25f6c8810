import ScanPlatform.Base.Checks
import ScanPlatform.Base.Collect
import ScanPlatform.Base.PyText
import ScanPlatform.Base.Records
import ScanPlatform.Tools.Katana

/-!
# The output of a crawl

What the text of a run of the crawler is made of, line by line, and which of these lines its
processes have written.

* `attemptedOf`, **`crawl_eq`**: the targets that are tried;
* `Turn.written`, `Turn.wholeLines`, `Turn.pieces`: what a process has written, and what is read
  of it;
* `urlsOf_chunks`, **`urls_crawl`**: the URLs of the text are those of the pieces;
* **`canonical_of_whole`**: a piece that is in one piece is a whole line;
* `parseLines_values`: the findings are the first distinct URLs.
-/

set_option autoImplicit false

namespace ScanPlatform.Tools

open PyStr Records

variable {F : Type} (py : Python F) (l : KatanaLimits)

/-! ## The targets that are tried -/

/-- The targets that are tried: the first one, and those whose turns come in time. -/
def attemptedOf : List Turn → List Turn
  | [] => []
  | turn :: turns =>
    turn :: turns.takeWhile fun turn => ¬ l.totalBudget - turn.elapsed < minPerTargetSeconds

variable {l} in
@[simp] theorem Crawled.add_attempted (c : Crawled) (r : TimedRun) :
    (c.add r).attempted = c.attempted + 1 := by
  unfold Crawled.add
  dsimp only
  split_ifs <;> rfl

variable {l} in
@[simp] theorem Crawled.add_chunks (c : Crawled) (r : TimedRun) :
    (c.add r).chunks = c.chunks ++ r.chunks := by
  unfold Crawled.add
  dsimp only
  split_ifs <;> rfl

variable {l} in
theorem crawl_cons {turn : Turn} {turns : List Turn} {c c' : Crawled}
    (hgo : ¬ (c.attempted ≠ 0 ∧ l.totalBudget - turn.elapsed < minPerTargetSeconds))
    (h : crawl l (turn :: turns) c = .ok c') :
    ∃ r, turn.result l = .ok r ∧ crawl l turns (c.add r) = .ok c' := by
  rw [crawl, if_neg hgo] at h
  exact Checks.bind_eq_ok.mp h

/-- The calls of some targets return. -/
def Returned (turns : List Turn) (rs : List TimedRun) : Prop :=
  List.Forall₂ (fun turn r => turn.result l = .ok r) turns rs

variable {l} in
theorem crawl_later {turns : List Turn} {c c' : Crawled} (hc : c.attempted ≠ 0)
    (h : crawl l turns c = .ok c') :
    ∃ rs, Returned l (turns.takeWhile fun turn =>
      ¬ l.totalBudget - turn.elapsed < minPerTargetSeconds) rs ∧ rs.foldl Crawled.add c = c' := by
  induction turns generalizing c with
  | nil => exact ⟨[], .nil, Except.ok.inj h⟩
  | cons turn turns ih =>
    by_cases hlate : l.totalBudget - turn.elapsed < minPerTargetSeconds
    · rw [crawl, if_pos ⟨hc, hlate⟩] at h
      rw [List.takeWhile_cons_of_neg (by simpa using hlate)]
      exact ⟨[], .nil, Except.ok.inj h⟩
    · obtain ⟨r, hr, hrest⟩ := crawl_cons (fun hboth => hlate hboth.2) h
      obtain ⟨rs, hrs, hfold⟩ := ih (by simp) hrest
      rw [List.takeWhile_cons_of_pos (by simpa using hlate)]
      exact ⟨r :: rs, .cons hr hrs, hfold⟩

variable {l} in
/-- **The loop** adds up what the targets return that are tried. -/
theorem crawl_eq {turns : List Turn} {c : Crawled} (h : crawl l turns .init = .ok c) :
    ∃ rs, Returned l (attemptedOf l turns) rs ∧ rs.foldl Crawled.add .init = c := by
  cases turns with
  | nil => exact ⟨[], .nil, Except.ok.inj h⟩
  | cons turn turns =>
    obtain ⟨r, hr, hrest⟩ := crawl_cons (fun hboth => hboth.1 rfl) h
    obtain ⟨rs, hrs, hfold⟩ := crawl_later (by simp) hrest
    exact ⟨r :: rs, .cons hr hrs, hfold⟩

/-! ## What a process has written -/

/-- What the process has written to its output. -/
def Turn.written (turn : Turn) : Bytes :=
  let settings := l.settings turn.elapsed
  readOf settings turn.events ++ if closedBy settings turn.events then [] else turn.unread

/-- What is kept of it. -/
def Turn.kept (turn : Turn) : Bytes := (turn.after l).stdout.output

/-- A status below 0 is that of a process which a signal has ended. -/
def Turn.exitedItself (turn : Turn) : Bool := (turn.after l).child.exited.any (0 ≤ ·)

/-- The byte of a newline. -/
def newline : UInt8 := 10

/-- The lines that a newline ends, and the last one of a process that has exited by itself. -/
def Turn.wholeLines (turn : Turn) : List Bytes :=
  records newline (turn.written l) ++
    if turn.exitedItself l then [remainder newline (turn.written l)] else []

/-- The last line that is kept is a whole one: a newline follows, or nothing does. -/
def Turn.tailWhole (turn : Turn) : Bool :=
  match (turn.written l).drop (turn.kept l).length with
  | [] => turn.exitedItself l
  | b :: _ => b = newline

/-- A line break that is no newline, within the line. -/
def breaksWithin (line : Bytes) : Bool :=
  (stripChars isSpace (Utf8.decode line)).any isLineBreak

/-- The lines of what is kept, and whether each of them is in pieces: cut off, or broken. -/
def Turn.pieces (turn : Turn) : List (Bool × Bytes) :=
  (records newline (turn.kept l)).map (fun line => (breaksWithin line, line)) ++
    [(!turn.tailWhole l || breaksWithin (remainder newline (turn.kept l)),
      remainder newline (turn.kept l))]

/-- The URLs of a text. -/
def urlsOf (text : List Char) : List String := (splitlines text).filterMap (urlOfLine py)

/-- The URLs of the lines, and whether each of them comes from a line in pieces. -/
def Turn.urls (turn : Turn) : List (Bool × String) :=
  (turn.pieces l).flatMap fun piece => (urlsOf py (Utf8.decode piece.2)).map (piece.1, ·)

/-- The canonical form of a line. -/
def canonicalOf (line : Bytes) : Option String :=
  canonicalUrl py (String.ofList (stripChars isSpace (Utf8.decode line)))

/-! ## The URLs of the text -/

theorem readsStripped_urlOfLine : ReadsStripped (urlOfLine py) where
  strip s := by
    unfold urlOfLine
    rw [stripChars_stripChars]
  nil := by simp [urlOfLine, stripChars]

theorem urlsOf_newline (a b : List Char) :
    urlsOf py (a ++ '\n' :: b) = urlsOf py a ++ urlsOf py b :=
  filterMap_splitlines_newline (readsStripped_urlOfLine py) a b

@[simp] theorem urlsOf_nil : urlsOf py [] = [] := rfl

/-- The URLs of what is kept are those of its lines. -/
theorem urlsOf_decode (bytes : Bytes) : urlsOf py (Utf8.decode bytes) =
    (records newline bytes).flatMap (fun line => urlsOf py (Utf8.decode line)) ++
      urlsOf py (Utf8.decode (remainder newline bytes)) := by
  induction bytes using stream_induction newline with
  | rest s hs => rw [records_of_not_mem hs, remainder_of_not_mem hs]; rfl
  | record s t hs ih =>
    have hdecode : Utf8.decode (s ++ newline :: t) = Utf8.decode s ++ '\n' :: Utf8.decode t :=
      Utf8.decode_append (by decide) s t
    rw [hdecode, urlsOf_newline, ih, records_cons hs, remainder_cons hs, List.flatMap_cons,
      List.append_assoc]

theorem urls_eq (turn : Turn) :
    (turn.urls py l).map Prod.snd = urlsOf py (Utf8.decode (turn.kept l)) := by
  have hpiece : ∀ piece : Bool × Bytes,
      ((urlsOf py (Utf8.decode piece.2)).map (piece.1, ·)).map Prod.snd =
        urlsOf py (Utf8.decode piece.2) := by
    intro piece
    rw [List.map_map]
    exact List.map_id _
  rw [urlsOf_decode, Turn.urls, List.map_flatMap]
  simp only [hpiece, Turn.pieces, List.flatMap_append, List.flatMap_map, List.flatMap_singleton]

/-- A text that a newline ends, if it is not empty. -/
def Terminated (text : List Char) : Prop := text = [] ∨ text.getLast? = some '\n'

theorem urlsOf_append {a : List Char} (h : Terminated a) (b : List Char) :
    urlsOf py (a ++ b) = urlsOf py a ++ urlsOf py b := by
  rcases h with rfl | h
  · rfl
  · obtain ⟨a, rfl⟩ := List.getLast?_eq_some_iff.mp h
    rw [List.append_assoc, List.singleton_append, urlsOf_newline, urlsOf_newline, urlsOf_nil,
      List.append_nil]

theorem terminated_chunks (r : TimedRun) : Terminated r.chunks.flatten := by
  unfold TimedRun.chunks
  split_ifs with hnil hlast
  · exact .inl rfl
  · exact .inr (by simpa using hlast)
  · exact .inr (by simp)

theorem urlsOf_chunks (r : TimedRun) : urlsOf py r.chunks.flatten = urlsOf py r.stdout := by
  unfold TimedRun.chunks
  split_ifs with hnil hlast
  · rw [hnil]
    rfl
  · simp
  · have htext : (r.stdout :: [['\n']]).flatten = r.stdout ++ '\n' :: [] := by simp
    rw [htext, urlsOf_newline, urlsOf_nil, List.append_nil]

theorem Terminated.append {a b : List Char} (ha : Terminated a) (hb : Terminated b) :
    Terminated (a ++ b) := by
  rcases hb with rfl | hb
  · rwa [List.append_nil]
  · exact .inr (by rw [List.getLast?_append, hb]; rfl)

theorem urlsOf_foldl {rs : List TimedRun} {c : Crawled} (hc : Terminated c.chunks.flatten) :
    urlsOf py (rs.foldl Crawled.add c).chunks.flatten =
      urlsOf py c.chunks.flatten ++ rs.flatMap fun r => urlsOf py r.stdout := by
  induction rs generalizing c with
  | nil => simp
  | cons r rs ih =>
    have hflat : (c.add r).chunks.flatten = c.chunks.flatten ++ r.chunks.flatten := by simp
    rw [List.foldl_cons, ih (by rw [hflat]; exact hc.append (terminated_chunks r)), hflat,
      urlsOf_append py hc, urlsOf_chunks, List.flatMap_cons, List.append_assoc]

/-! ## What is kept -/

section

variable {py l} {turn : Turn} {turns : List Turn} {r : TimedRun}

theorem settings_given (l : KatanaLimits) (elapsed : ℚ) : (l.settings elapsed).budgets.given := rfl

theorem result_phase (h : turn.result l = .ok r) : (turn.after l).phase = .done (.returned r) := by
  unfold Turn.result at h
  cases hphase : (turn.after l).phase with
  | done ending =>
    rw [hphase] at h
    cases ending with
    | returned r' => rw [Except.ok.inj h]
    | raised name => cases h
    | cancelled => cases h
  | pumping | waiting | stopping | reaping =>
    rw [hphase] at h
    cases h

/-- What a call returns of a turn. -/
theorem result_reports (h : turn.result l = .ok r) :
    (turn.after l).Reports (Overran (l.settings turn.elapsed) turn.events) r :=
  returned_cases (settings_given l turn.elapsed) (result_phase h)

theorem result_stdout (h : turn.result l = .ok r) : r.stdout = Utf8.decode (turn.kept l) := by
  rcases result_reports h with ⟨rfl, -⟩ | ⟨rfl, -⟩ | ⟨rfl, -⟩
  · rfl
  · rfl
  · rfl

theorem kept_begins (hbytes : 0 < l.maxStdoutBytes) (hurls : 0 < l.maxUrls) (turn : Turn) :
    turn.kept l <+: turn.written l :=
  (stdout_begins rfl hbytes hurls turn.events).trans (List.prefix_append _ _)

/-- **The URLs of the text** are those of the lines that are kept. -/
theorem urls_crawl {c : Crawled} (h : crawl l turns .init = .ok c) :
    urlsOf py c.chunks.flatten =
      ((attemptedOf l turns).flatMap (Turn.urls py l)).map Prod.snd := by
  obtain ⟨rs, hrs, rfl⟩ := crawl_eq h
  rw [urlsOf_foldl py (.inl rfl), List.map_flatMap]
  have hflat : ∀ {ts : List Turn} {rs : List TimedRun}, Returned l ts rs →
      (rs.flatMap fun r => urlsOf py r.stdout) =
        ts.flatMap fun turn => (turn.urls py l).map Prod.snd := by
    intro ts rs h
    induction h with
    | nil => rfl
    | cons hr _ ih =>
      rw [List.flatMap_cons, List.flatMap_cons, ih, result_stdout hr, urls_eq]
  exact hflat hrs

/-! ## Whole lines -/

theorem remainder_mem_wholeLines (hkept : turn.kept l <+: turn.written l)
    (h : turn.tailWhole l) : remainder newline (turn.kept l) ∈ turn.wholeLines l := by
  obtain ⟨more, hmore⟩ := hkept
  unfold Turn.tailWhole at h
  rw [← hmore, List.drop_left] at h
  unfold Turn.wholeLines
  rw [← hmore]
  cases more with
  | nil =>
    rw [List.append_nil, if_pos h]
    exact List.mem_append_right _ List.mem_cons_self
  | cons b more =>
    obtain rfl : b = newline := of_decide_eq_true h
    rw [records_append_sep]
    exact List.mem_append_left _ (List.mem_append_right _ List.mem_cons_self)

/-- The URLs of a line without breaks: that of the line. -/
theorem urlsOf_line {line : Bytes} (h : breaksWithin line = false) :
    urlsOf py (Utf8.decode line) = (urlOfLine py (Utf8.decode line)).toList := by
  refine filterMap_splitlines_strip (readsStripped_urlOfLine py) ?_
  simpa [breaksWithin] using h

theorem canonicalUrl_of_line {line : Bytes} {url : String}
    (h : urlOfLine py (Utf8.decode line) = some url) :
    canonicalOf py line = canonicalUrl py url := by
  unfold urlOfLine at h
  obtain ⟨-, h⟩ := Option.ite_none_right_eq_some.mp h
  rw [← Option.some.inj h]
  rfl

/-- **A line that is not in pieces** is a whole one. -/
theorem canonical_of_whole (hkept : turn.kept l <+: turn.written l) {url : String}
    (h : (false, url) ∈ turn.urls py l) :
    ∃ line ∈ turn.wholeLines l, canonicalOf py line = canonicalUrl py url := by
  obtain ⟨⟨inPieces, line⟩, hpiece, hurl⟩ := List.mem_flatMap.mp h
  obtain ⟨url', hmem, heq⟩ := List.mem_map.mp hurl
  obtain ⟨rfl, rfl⟩ := Prod.mk.inj heq
  have hline : breaksWithin line = false ∧ line ∈ turn.wholeLines l := by
    rcases List.mem_append.mp hpiece with hrecord | htail
    · obtain ⟨record, hin, heq⟩ := List.mem_map.mp hrecord
      obtain ⟨hbreaks, rfl⟩ := Prod.mk.inj heq
      obtain ⟨more, hmore⟩ := hkept
      refine ⟨hbreaks, List.mem_append_left _ ?_⟩
      rw [← hmore]
      exact (records_begin _ _).subset hin
    · obtain ⟨hflag, rfl⟩ := Prod.mk.inj (List.mem_singleton.mp htail)
      obtain ⟨hwhole, hbreaks⟩ := Bool.or_eq_false_iff.mp hflag.symm
      exact ⟨hbreaks, remainder_mem_wholeLines hkept (by simpa using hwhole)⟩
  refine ⟨line, hline.2, canonicalUrl_of_line ?_⟩
  rw [urlsOf_line hline.1] at hmem
  exact Option.mem_toList.mp hmem

/-! ## The findings -/

/-- The loop keeps the first distinct URLs, in their canonical form. -/
theorem parseLines_values (lines : List (List Char)) (findings : List CommonFinding) :
    (parseLines py lines findings).map (·.map (·.value)) =
      FirstDistinct.firstDistinct maxUrls (canonicalUrl py) (findings.map (·.value))
        (lines.filterMap (urlOfLine py)) := by
  induction lines generalizing findings with
  | nil => rfl
  | cons line lines ih =>
    rw [parseLines]
    cases hurl : urlOfLine py line with
    | none => rw [List.filterMap_cons_none hurl]; exact ih findings
    | some url =>
      rw [List.filterMap_cons_some hurl, FirstDistinct.firstDistinct]
      dsimp only
      cases hcanonical : canonicalUrl py url with
      | none => rfl
      | some canonical =>
        have hkeep : (findings ++ [katanaFinding py url canonical]).map (·.value) =
            findings.map (·.value) ++ [canonical] := by simp [katanaFinding]
        have hlength : (findings ++ [katanaFinding py url canonical]).length =
            (findings.map (·.value) ++ [canonical]).length := by simp
        simp only [Option.bind_some, hlength]
        split_ifs
        · exact ih findings
        · exact congrArg some hkeep
        · rw [ih, hkeep]

end

end ScanPlatform.Tools
