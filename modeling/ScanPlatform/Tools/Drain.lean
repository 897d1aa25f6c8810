import ScanPlatform.Base.Records

/-!
# The output of a tool

A pipe of a tool is read chunk by chunk, up to a number of bytes and a number of lines.

* `OutputBudget`, `Drain`, `Drain.chunk`, `drain`: the loop that reads a pipe;
* `lineEnd`, `keptOf`, `limitOf`: what is kept of a stream, and the limit that it reaches first;
* `Straddled`, **`drain_spec`**: what the loop keeps of the chunks, and which limit it names;
* `ChunkFree`, **`drain_chunk_free_iff`**: when the loop does not depend on the chunks;
  `drain_chunk_free_straddled` are chunks that it depends on.
-/

set_option autoImplicit false

namespace ScanPlatform.Tools

open NthEnd

/-! ## The loop -/

abbrev Bytes := List UInt8

def isNewline (b : UInt8) : Bool := b = 10

/-- `cap` and `line_cap`. -/
structure OutputBudget where
  cap : Option ℕ
  lineCap : Option ℕ

/-- Which budget is named, after the name of the pipe. -/
inductive Limit where
  | lines
  | bytes
  deriving DecidableEq

/-- What `_drain` has done with a pipe. It returns with the limit that it names. -/
structure Drain where
  sink : List Bytes
  kept : ℕ
  seen : ℕ
  linesSeen : ℕ
  tripped : Option Limit
  deriving DecidableEq

def Drain.init : Drain := ⟨[], 0, 0, 0, none⟩

/-- `b"".join(sink)`. -/
def Drain.output (d : Drain) : Bytes := d.sink.flatten

/-- A piece is kept. -/
def Drain.keep (d : Drain) (piece : Bytes) : Drain :=
  { d with sink := d.sink ++ [piece], kept := d.kept + piece.length }

/-- The byte budget, for a chunk that has been counted. -/
def Drain.byteBudget (cap : Option ℕ) (d : Drain) (chunk : Bytes) : Drain :=
  match cap with
  | none => d.keep chunk
  | some cap =>
    let d := if d.kept < cap then d.keep (chunk.take (cap - d.kept)) else d
    if cap ≤ d.seen then { d with tripped := some .bytes } else d

/-- The body of the loop. -/
def Drain.chunk (budget : OutputBudget) (d : Drain) (chunk : Bytes) : Drain :=
  let d := { d with seen := d.seen + chunk.length }
  match budget.lineCap with
  | none =>
    -- Without any budget nothing is counted.
    if budget.cap = none then { d with sink := d.sink ++ [chunk] }
    else d.byteBudget budget.cap chunk
  | some lineCap =>
    let before := d.linesSeen
    let d := { d with linesSeen := before + chunk.countP isNewline }
    if lineCap ≤ d.linesSeen then
      let piece := chunk.take (cutAt isNewline (lineCap - before) chunk)
      let piece := match budget.cap with
        | none => piece
        | some cap => piece.take (cap - d.kept)
      { d.keep piece with tripped := some .lines }
    else d.byteBudget budget.cap chunk

/-- The loop of `_drain`; an empty chunk is the end of the stream. -/
def drain (budget : OutputBudget) : Drain → List Bytes → Drain
  | d, [] => d
  | d, chunk :: chunks =>
    if chunk = [] then d
    else
      let d := d.chunk budget chunk
      if d.tripped.isSome then d else drain budget d chunks

/-! ## What a stream comes to -/

section

variable (cap lineCap : ℕ)

/-- Where the last line that is allowed ends. -/
def lineEnd (stream : Bytes) : Option ℕ := nthEnd isNewline lineCap stream

/-- The shorter of the first `cap` bytes and the first `lineCap` lines, if there are as many. -/
def keptOf (stream : Bytes) : Bytes :=
  stream.take (min cap ((lineEnd lineCap stream).getD stream.length))

/-- The bound that the stream reaches first, and the lines when it reaches both at once. -/
def limitOf (stream : Bytes) : Option Limit :=
  match lineEnd lineCap stream with
  | some e => if e ≤ cap then some .lines else some .bytes
  | none => if cap ≤ stream.length then some .bytes else none

/-- After `all`, one of the chunks holds the last byte that is allowed and, later on, the end of the
last line that is allowed. -/
def Straddled (all : Bytes) (chunks : List Bytes) : Prop :=
  ∃ pre chunk post e, chunks = pre ++ chunk :: post ∧
    lineEnd lineCap (all ++ chunks.flatten) = some e ∧ all.length + pre.flatten.length < cap ∧
    cap < e ∧ e ≤ all.length + pre.flatten.length + chunk.length

end

/-! ## What the loop keeps -/

section

variable {cap lineCap : ℕ} {all chunk : Bytes} {chunks : List Bytes} {d : Drain}

/-- The loop has read `all` and goes on. -/
structure Drain.Reading (cap lineCap : ℕ) (all : Bytes) (d : Drain) : Prop where
  output : d.output = all
  kept : d.kept = all.length
  seen : d.seen = all.length
  linesSeen : d.linesSeen = all.countP isNewline
  tripped : d.tripped = none
  below : all.length < cap
  linesBelow : all.countP isNewline < lineCap

theorem Drain.Reading.init (hcap : 0 < cap) (hlines : 0 < lineCap) :
    Drain.Reading cap lineCap [] .init := ⟨rfl, rfl, rfl, rfl, rfl, hcap, hlines⟩

@[simp] theorem Drain.output_keep (d : Drain) (piece : Bytes) :
    (d.keep piece).output = d.output ++ piece := by
  simp [Drain.keep, Drain.output]

/-- The end of the last line within a chunk, or later. -/
theorem lineEnd_chunk (hlines : all.countP isNewline < lineCap) (chunk rest : Bytes) :
    lineEnd lineCap (all ++ (chunk ++ rest)) =
      if lineCap ≤ all.countP isNewline + chunk.countP isNewline then
        (nthEnd isNewline (lineCap - all.countP isNewline) chunk).map (all.length + ·)
      else
        (nthEnd isNewline (lineCap - all.countP isNewline - chunk.countP isNewline) rest).map
          (all.length + chunk.length + ·) := by
  rw [lineEnd, nthEnd_append, if_neg (Nat.not_le.mpr hlines), nthEnd_append]
  by_cases hin : lineCap ≤ all.countP isNewline + chunk.countP isNewline
  · rw [if_pos hin, if_pos (by omega)]
  · rw [if_neg hin, if_neg (by omega), Option.map_map]
    congr 1
    funext e
    simp only [Function.comp_apply]
    omega

/-- **The lines end in the chunk**: the chunk is cut there, or where the bytes end, and the lines
are named. -/
theorem Drain.Reading.chunk_lines (h : d.Reading cap lineCap all)
    (hin : lineCap ≤ all.countP isNewline + chunk.countP isNewline) :
    ∃ e, lineEnd lineCap (all ++ chunk) = some e ∧ e ≤ all.length + chunk.length ∧
      (d.chunk ⟨some cap, some lineCap⟩ chunk).output = (all ++ chunk).take (min cap e) ∧
      (d.chunk ⟨some cap, some lineCap⟩ chunk).tripped = some .lines := by
  have hcount : lineCap - all.countP isNewline ≤ chunk.countP isNewline := by omega
  obtain ⟨e, he⟩ := Option.isSome_iff_exists.mp ((nthEnd_isSome _ _).mpr hcount)
  have hend := lineEnd_chunk h.linesBelow chunk []
  rw [List.append_nil, if_pos hin, he, Option.map_some] at hend
  have hle := nthEnd_le he
  have hbelow := h.below
  refine ⟨all.length + e, hend, by omega, ?_, ?_⟩
  · unfold Drain.chunk
    simp only [h.linesSeen, h.kept, if_pos hin, cutAt_eq he]
    have hmin : min cap (all.length + e) = all.length + min (cap - all.length) e := by omega
    rw [hmin, List.take_length_add_append, ← List.take_take]
    simp only [Drain.keep, Drain.output, List.flatten_append, List.flatten_cons, List.flatten_nil,
      List.append_nil]
    rw [show d.sink.flatten = all from h.output]
  · unfold Drain.chunk
    simp only [h.linesSeen, if_pos hin]

/-- **The lines do not end in the chunk**: the bytes may, and otherwise the loop goes on. -/
theorem Drain.Reading.chunk_bytes (h : d.Reading cap lineCap all)
    (hout : ¬ lineCap ≤ all.countP isNewline + chunk.countP isNewline) :
    if cap ≤ all.length + chunk.length then
      (d.chunk ⟨some cap, some lineCap⟩ chunk).output = (all ++ chunk).take cap ∧
        (d.chunk ⟨some cap, some lineCap⟩ chunk).tripped = some .bytes
    else (d.chunk ⟨some cap, some lineCap⟩ chunk).Reading cap lineCap (all ++ chunk) := by
  have hbelow := h.below
  have hchunk : d.chunk ⟨some cap, some lineCap⟩ chunk =
      (({ d with
          seen := all.length + chunk.length
          linesSeen := all.countP isNewline + chunk.countP isNewline } : Drain).byteBudget
        (some cap) chunk) := by
    unfold Drain.chunk
    simp only [h.linesSeen, h.seen, if_neg hout]
  have htake : all ++ chunk.take (cap - all.length) = (all ++ chunk).take cap := by
    conv_rhs => rw [show cap = all.length + (cap - all.length) by omega]
    exact (List.take_length_add_append _).symm
  rw [hchunk]
  unfold Drain.byteBudget
  simp only [h.kept, if_pos hbelow, Drain.keep]
  by_cases hfull : cap ≤ all.length + chunk.length
  · simp only [if_pos hfull]
    refine ⟨?_, trivial⟩
    rw [← htake, ← h.output]
    simp [Drain.output]
  · simp only [if_neg hfull]
    have hwhole : chunk.take (cap - all.length) = chunk := List.take_of_length_le (by omega)
    rw [hwhole]
    refine ⟨?_, ?_, ?_, ?_, h.tripped, ?_, ?_⟩
    · rw [← h.output]
      simp [Drain.output]
    · simp
    · simp
    · simp
    · simp only [List.length_append]
      omega
    · simp only [List.countP_append]
      omega

theorem straddled_cons (hlines : all.countP isNewline < lineCap)
    (hout : ¬ lineCap ≤ all.countP isNewline + chunk.countP isNewline) :
    Straddled cap lineCap all (chunk :: chunks) ↔ Straddled cap lineCap (all ++ chunk) chunks := by
  have hflat : all ++ (chunk :: chunks).flatten = all ++ chunk ++ chunks.flatten := by simp
  unfold Straddled
  rw [hflat]
  constructor
  · rintro ⟨pre, c, post, e, heq, he, hlt, hcap, hle⟩
    cases pre with
    | nil =>
      obtain ⟨rfl, rfl⟩ := List.cons.inj heq
      rw [List.append_assoc, lineEnd_chunk hlines, if_neg hout] at he
      obtain ⟨e', he', rfl⟩ := Option.map_eq_some_iff.mp he
      have hpos : 0 < e' := by
        obtain ⟨n, hn⟩ : ∃ n, lineCap - all.countP isNewline - chunk.countP isNewline = n + 1 :=
          ⟨lineCap - all.countP isNewline - chunk.countP isNewline - 1, by omega⟩
        rw [hn] at he'
        exact nthEnd_pos he'
      simp only [List.flatten_nil, List.length_nil] at hle
      omega
    | cons c' pre =>
      obtain ⟨rfl, rfl⟩ := List.cons.inj heq
      refine ⟨pre, c, post, e, rfl, he, ?_, hcap, ?_⟩
      · simp only [List.flatten_cons, List.length_append] at hlt ⊢
        omega
      · simp only [List.flatten_cons, List.length_append] at hle ⊢
        omega
  · rintro ⟨pre, c, post, e, rfl, he, hlt, hcap, hle⟩
    refine ⟨chunk :: pre, c, post, e, rfl, he, ?_, hcap, ?_⟩
    · simp only [List.flatten_cons, List.length_append] at hlt ⊢
      omega
    · simp only [List.flatten_cons, List.length_append] at hle ⊢
      omega

/-- The lines that are allowed end in what comes first. -/
theorem lineEnd_append {stream : Bytes} {e : ℕ} (h : lineEnd lineCap stream = some e)
    (rest : Bytes) : lineEnd lineCap (stream ++ rest) = some e := by
  have hcount : lineCap ≤ stream.countP isNewline :=
    (nthEnd_isSome _ _).mp (Option.isSome_of_eq_some h)
  rw [lineEnd, nthEnd_append, if_pos hcount]
  exact h

/-- They end after what comes first. -/
theorem lt_lineEnd {stream rest : Bytes} {e : ℕ} (h : lineEnd lineCap (stream ++ rest) = some e)
    (hout : stream.countP isNewline < lineCap) : stream.length < e := by
  rw [lineEnd, nthEnd_append, if_neg (Nat.not_le.mpr hout)] at h
  obtain ⟨e', he', rfl⟩ := Option.map_eq_some_iff.mp h
  obtain ⟨n, hn⟩ : ∃ n, lineCap - stream.countP isNewline = n + 1 :=
    ⟨lineCap - stream.countP isNewline - 1, by omega⟩
  rw [hn] at he'
  exact Nat.lt_add_of_pos_right (nthEnd_pos he')

theorem limitOf_lines {stream : Bytes} {e : ℕ} (h : lineEnd lineCap stream = some e)
    (hle : e ≤ cap) : limitOf cap lineCap stream = some .lines := by
  rw [limitOf, h]
  exact if_pos hle

/-- The bytes end before the lines do. -/
theorem limitOf_bytes {stream : Bytes} (hcap : cap ≤ stream.length)
    (h : ∀ e, lineEnd lineCap stream = some e → cap < e) :
    limitOf cap lineCap stream = some .bytes := by
  unfold limitOf
  cases he : lineEnd lineCap stream with
  | none => exact if_pos hcap
  | some e => exact if_neg (Nat.not_le.mpr (h e he))

theorem keptOf_bytes {stream : Bytes} (hcap : cap ≤ stream.length)
    (h : ∀ e, lineEnd lineCap stream = some e → cap < e) :
    keptOf cap lineCap stream = stream.take cap := by
  unfold keptOf
  cases he : lineEnd lineCap stream with
  | none =>
    rw [Option.getD_none, Nat.min_eq_left hcap]
  | some e =>
    rw [Option.getD_some, Nat.min_eq_left (Nat.le_of_lt (h e he))]

/-- What the loop returns with. -/
structure Drain.Result (cap lineCap : ℕ) (all : Bytes) (chunks : List Bytes) (d : Drain) :
    Prop where
  output : d.output = keptOf cap lineCap (all ++ chunks.flatten)
  straddled : Straddled cap lineCap all chunks →
    d.tripped = some .lines ∧ limitOf cap lineCap (all ++ chunks.flatten) = some .bytes
  limit : ¬ Straddled cap lineCap all chunks →
    d.tripped = limitOf cap lineCap (all ++ chunks.flatten)

theorem Drain.Reading.result_nil (h : d.Reading cap lineCap all) :
    d.Result cap lineCap all [] := by
  have hend : lineEnd lineCap all = none := nthEnd_eq_none.mpr h.linesBelow
  have hbelow := h.below
  refine ⟨?_, ?_, fun _ => ?_⟩
  · rw [List.flatten_nil, List.append_nil, keptOf, hend, Option.getD_none,
      Nat.min_eq_right (Nat.le_of_lt hbelow), List.take_length, h.output]
  · rintro ⟨pre, c, post, -, heq, -⟩
    simp at heq
  · rw [List.flatten_nil, List.append_nil, limitOf, hend, h.tripped]
    exact (if_neg (Nat.not_le.mpr hbelow)).symm

theorem Drain.Reading.result_lines (h : d.Reading cap lineCap all)
    (hin : lineCap ≤ all.countP isNewline + chunk.countP isNewline) (chunks : List Bytes) :
    (d.chunk ⟨some cap, some lineCap⟩ chunk).Result cap lineCap all (chunk :: chunks) := by
  obtain ⟨e, hend, hle, houtput, htripped⟩ := h.chunk_lines hin
  have hend' : lineEnd lineCap (all ++ (chunk :: chunks).flatten) = some e := by
    rw [List.flatten_cons, ← List.append_assoc]
    exact lineEnd_append hend _
  refine ⟨?_, ?_, fun hnot => ?_⟩
  · have hmin : min cap e ≤ (all ++ chunk).length := by
      rw [List.length_append]
      omega
    rw [houtput, keptOf, hend', Option.getD_some, List.flatten_cons, ← List.append_assoc,
      List.take_append_of_le_length hmin]
  · rintro ⟨pre, c, post, e', -, he', hlt, hcap, -⟩
    obtain rfl : e' = e := Option.some.inj (he'.symm.trans hend')
    refine ⟨htripped, ?_⟩
    rw [limitOf, hend']
    exact if_neg (Nat.not_le.mpr hcap)
  · have hbelow := h.below
    have hcap : e ≤ cap := by
      by_contra hlt
      refine hnot ⟨[], chunk, chunks, e, rfl, hend', ?_, Nat.lt_of_not_le hlt, ?_⟩
      · simpa using hbelow
      · simpa using hle
    rw [htripped, limitOf_lines hend' hcap]

/-- **What the loop keeps**, and the limit that it names. -/
theorem drain_spec (h : d.Reading cap lineCap all) (hne : ∀ c ∈ chunks, c ≠ []) :
    (drain ⟨some cap, some lineCap⟩ d chunks).Result cap lineCap all chunks := by
  induction chunks generalizing d all with
  | nil => exact h.result_nil
  | cons chunk chunks ih =>
    have hchunk : chunk ≠ [] := hne chunk List.mem_cons_self
    rw [drain, if_neg hchunk]
    dsimp only
    by_cases hin : lineCap ≤ all.countP isNewline + chunk.countP isNewline
    · have hresult := h.result_lines hin chunks
      obtain ⟨-, -, -, -, htripped⟩ := h.chunk_lines hin
      rwa [htripped, Option.isSome_some, if_pos rfl]
    · have hbytes := h.chunk_bytes hin
      have hflat : all ++ (chunk :: chunks).flatten = all ++ chunk ++ chunks.flatten := by simp
      have hstraddled : Straddled cap lineCap all (chunk :: chunks) ↔
          Straddled cap lineCap (all ++ chunk) chunks := straddled_cons h.linesBelow hin
      by_cases hfull : cap ≤ all.length + chunk.length
      · rw [if_pos hfull] at hbytes
        obtain ⟨houtput, htripped⟩ := hbytes
        have hlength : (all ++ chunk).length = all.length + chunk.length := List.length_append
        have hout : (all ++ chunk).countP isNewline < lineCap := by
          rw [List.countP_append]
          omega
        have hcap : cap ≤ (all ++ chunk ++ chunks.flatten).length := by
          rw [List.length_append]
          omega
        have hend : ∀ e, lineEnd lineCap (all ++ chunk ++ chunks.flatten) = some e → cap < e :=
          fun e he => by
            have := lt_lineEnd he hout
            omega
        rw [htripped, Option.isSome_some, if_pos rfl]
        refine ⟨?_, fun hs => ?_, fun _ => ?_⟩
        · have htake : (all ++ chunk ++ chunks.flatten).take cap = (all ++ chunk).take cap :=
            List.take_append_of_le_length (by omega)
          rw [houtput, hflat, keptOf_bytes hcap hend, htake]
        · obtain ⟨pre, c, post, e, -, -, hlt, -, -⟩ := hstraddled.mp hs
          omega
        · rw [htripped, hflat, limitOf_bytes hcap hend]
      · rw [if_neg hfull] at hbytes
        rw [hbytes.tripped, Option.isSome_none, if_neg Bool.false_ne_true]
        have hrest := ih hbytes fun c hc => hne c (List.mem_cons_of_mem _ hc)
        exact ⟨hflat ▸ hrest.output, fun hs => hflat ▸ hrest.straddled (hstraddled.mp hs),
          fun hs => hflat ▸ hrest.limit (mt hstraddled.mpr hs)⟩

/-! ## Chunks -/

/-- The loop keeps of the stream what the bounds allow, trips exactly when one of them is reached,
and names the one that is reached first. -/
structure ChunkFree (cap lineCap : ℕ) (stream : Bytes) (d : Drain) : Prop where
  output : d.output = keptOf cap lineCap stream
  trips : d.tripped.isSome ↔
    cap ≤ stream.length ∨ lineCap ≤ stream.countP isNewline
  limit : d.tripped = limitOf cap lineCap stream

theorem limitOf_isSome (stream : Bytes) : (limitOf cap lineCap stream).isSome ↔
    cap ≤ stream.length ∨ lineCap ≤ stream.countP isNewline := by
  have hlines : (lineEnd lineCap stream).isSome ↔ lineCap ≤ stream.countP isNewline :=
    nthEnd_isSome _ _
  rw [← hlines]
  unfold limitOf
  cases lineEnd lineCap stream with
  | none => simp
  | some e => by_cases he : e ≤ cap <;> simp [he]

/-- **When the chunks do not matter**: unless one of them holds the last byte that is allowed and,
later on, the end of the last line that is allowed. -/
theorem drain_chunk_free_iff {cap lineCap : ℕ} (hcap : 1 ≤ cap) (hlines : 1 ≤ lineCap)
    {chunks : List Bytes} (hne : ∀ c ∈ chunks, c ≠ []) :
    ChunkFree cap lineCap chunks.flatten (drain ⟨some cap, some lineCap⟩ .init chunks) ↔
      ¬ Straddled cap lineCap [] chunks := by
  have hresult := drain_spec (Drain.Reading.init hcap hlines) hne
  constructor
  · intro hfree hs
    obtain ⟨htripped, hbytes⟩ := hresult.straddled hs
    have hlimit := hfree.limit
    rw [htripped, ← List.nil_append chunks.flatten, hbytes] at hlimit
    cases hlimit
  · intro hs
    have hlimit := hresult.limit hs
    exact ⟨hresult.output, by rw [hlimit]; exact limitOf_isSome _, hlimit⟩

/-- The same stream, in chunks of one byte. -/
theorem drain_chunk_free_bytewise :
    ChunkFree 2 1 [[97], [98], [10]].flatten
        (drain ⟨some 2, some 1⟩ .init [[97], [98], [10]]) ↔
      ¬ Straddled 2 1 [] [[97], [98], [10]] :=
  drain_chunk_free_iff (by decide) (by decide) (by decide)

/-- Two bytes are allowed and one line, and the line ends after the third byte. -/
theorem drain_chunk_free_straddled :
    ¬ ChunkFree 2 1 [[97, 98, 10]].flatten (drain ⟨some 2, some 1⟩ .init [[97, 98, 10]]) ∧
      ChunkFree 2 1 [[97], [98], [10]].flatten
        (drain ⟨some 2, some 1⟩ .init [[97], [98], [10]]) := by
  refine ⟨fun h => absurd h.limit (by decide), by decide, by decide, by decide⟩

end

end ScanPlatform.Tools
