import Runtt.LineStream

/-! # Reading a stream by lines

`BufRead` of the standard library over a stream that is given by its reads: `read_until`
and the iterator of `lines`.  A call that needs a read when none is left does not return.

Successive calls of `read_until` return the `records` of the stream, whatever the reader
holds back in between (`readUntil_cases`).  An error other than an interruption costs
what has been read of the line.
-/
namespace LineReader
open LineStream

/-- The kinds of error that a caller tells apart. -/
inductive ErrorKind where
  | timedOut
  | wouldBlock
  | interrupted
  | invalidData
  | other
  deriving DecidableEq, Repr

/-- What a read of the stream returned: what it put into the buffer, nothing at the end of
the stream, or an error. -/
abbrev Read (α : Type) := Except ErrorKind (List α)

/-- What is left of the last read, and the reads to come. -/
structure BufReader (α : Type) where
  buffer : List α
  reads : List (Read α)

variable {α : Type} [DecidableEq α] (sep : α)

/-- A buffer up to its first separator, with it, and what is behind. -/
def cut : List α → Option (List α × List α)
  | [] => none
  | b :: s => if b = sep then some ([b], s) else (cut s).map fun p => (b :: p.1, p.2)

/-- `read_until`, when the buffer is used up and `line` is what it gave. -/
def readMore (line : List α) : List (Read α) → Option (Read α × BufReader α)
  | [] => none
  | .ok [] :: reads => some (.ok line, ⟨[], reads⟩)
  | .ok (b :: bs) :: reads =>
    match cut sep (b :: bs) with
    | some (head, rest) => some (.ok (line ++ head), ⟨rest, reads⟩)
    | none => readMore (line ++ b :: bs) reads
  | .error .interrupted :: reads => readMore line reads
  | .error e :: reads => some (.error e, ⟨[], reads⟩)

/-- `BufRead::read_until`. -/
def readUntil (r : BufReader α) : Option (Read α × BufReader α) :=
  match cut sep r.buffer with
  | some (head, rest) => some (.ok head, ⟨rest, r.reads⟩)
  | none => readMore sep r.buffer r.reads

/-- A line without its separator, and then without a `ret` at its end. -/
def chomp (ret : α) (line : List α) : List α :=
  if line.getLast? = some sep then
    if line.dropLast.getLast? = some ret then line.dropLast.dropLast else line.dropLast
  else line

/-- `Lines::next`, behind `read_line`, which wants the line `valid`. -/
def nextLine (ret : α) (valid : List α → Bool) (r : BufReader α) :
    Option (Option (Read α) × BufReader α) :=
  match readUntil sep r with
  | none => none
  | some (.error e, r') => some (some (.error e), r')
  | some (.ok [], r') => some (none, r')
  | some (.ok (b :: bs), r') =>
    if valid (b :: bs) then some (some (.ok (chomp sep ret (b :: bs))), r')
    else some (some (.error .invalidData), r')

/-! ## What successive calls return -/

/-- The results of successive calls of `read_until`, behind the start `line` of the first. -/
def records (line : List α) : List (Read α) → List (Read α)
  | [] => []
  | .ok [] :: reads => .ok line :: records [] reads
  | .ok (b :: bs) :: reads =>
    (linesFrom sep line (b :: bs)).map (fun l => .ok (l ++ [sep])) ++
      records (openFrom sep line (b :: bs)) reads
  | .error .interrupted :: reads => records line reads
  | .error e :: reads => .error e :: records [] reads

/-- The same, from a reader that holds part of its last read. -/
def recordsOf (r : BufReader α) : List (Read α) :=
  (linesFrom sep [] r.buffer).map (fun l => .ok (l ++ [sep])) ++
    records sep (openFrom sep [] r.buffer) r.reads

variable {sep}

variable (sep) in
theorem cut_cases (line s : List α) :
    (cut sep s = none ∧ linesFrom sep line s = [] ∧ openFrom sep line s = line ++ s) ∨
      ∃ head rest, cut sep s = some (head ++ [sep], rest) ∧
        linesFrom sep line s = (line ++ head) :: linesFrom sep [] rest ∧
        openFrom sep line s = openFrom sep [] rest := by
  induction s generalizing line with
  | nil => exact .inl ⟨rfl, rfl, (List.append_nil line).symm⟩
  | cons b s ih =>
    by_cases hb : b = sep
    · subst hb
      refine .inr ⟨[], s, if_pos rfl, ?_, openFrom_sep⟩
      rw [linesFrom, if_pos rfl, List.append_nil]
    · rw [cut, if_neg hb, linesFrom, if_neg hb, openFrom_cons hb]
      rcases ih (line ++ [b]) with ⟨hcut, hlines, hopen⟩ | ⟨head, rest, hcut, hlines, hopen⟩
      · refine .inl ⟨by rw [hcut]; rfl, hlines, ?_⟩
        rw [hopen, List.append_assoc]
        rfl
      · refine .inr ⟨b :: head, rest, by rw [hcut]; rfl, ?_, hopen⟩
        rw [hlines, List.append_assoc]
        rfl

theorem readMore_cases (line : List α) (reads : List (Read α)) :
    (readMore sep line reads = none ∧ records sep line reads = []) ∨
      ∃ x r, readMore sep line reads = some (x, r) ∧
        records sep line reads = x :: recordsOf sep r := by
  induction reads generalizing line with
  | nil => exact .inl ⟨rfl, rfl⟩
  | cons read reads ih =>
    rcases read with e | _ | ⟨b, bs⟩
    · cases e with
      | interrupted => exact ih line
      | timedOut => exact .inr ⟨_, _, rfl, rfl⟩
      | wouldBlock => exact .inr ⟨_, _, rfl, rfl⟩
      | invalidData => exact .inr ⟨_, _, rfl, rfl⟩
      | other => exact .inr ⟨_, _, rfl, rfl⟩
    · exact .inr ⟨_, _, rfl, rfl⟩
    · rw [readMore, records]
      rcases cut_cases sep line (b :: bs) with
        ⟨hcut, hlines, hopen⟩ | ⟨head, rest, hcut, hlines, hopen⟩
      · rw [hcut, hlines, hopen]
        exact ih _
      · rw [hcut, hlines, hopen]
        refine .inr ⟨_, _, rfl, ?_⟩
        rw [List.map_cons, List.cons_append, List.append_assoc]
        rfl

variable (sep) in
/-- **One call of `read_until`** returns the next record, and leaves the others. -/
theorem readUntil_cases (r : BufReader α) :
    (readUntil sep r = none ∧ recordsOf sep r = []) ∨
      ∃ x r', readUntil sep r = some (x, r') ∧ recordsOf sep r = x :: recordsOf sep r' := by
  rw [readUntil, recordsOf]
  rcases cut_cases sep [] r.buffer with
    ⟨hcut, hlines, hopen⟩ | ⟨head, rest, hcut, hlines, hopen⟩
  · rw [hcut, hlines, hopen]
    exact readMore_cases r.buffer r.reads
  · rw [hcut, hlines, hopen]
    exact .inr ⟨_, _, rfl, rfl⟩

/-! ## Records, piece by piece -/

theorem records_bytes (line b : List α) (hb : b ≠ []) (reads : List (Read α)) :
    records sep line (.ok b :: reads) =
      (linesFrom sep line b).map (fun l => .ok (l ++ [sep])) ++
        records sep (openFrom sep line b) reads := by
  cases b with
  | nil => exact absurd rfl hb
  | cons b bs => rfl

/-- Any other error costs the line it comes in. -/
theorem records_error (line : List α) {e : ErrorKind} (he : e ≠ .interrupted)
    (reads : List (Read α)) :
    records sep line (.error e :: reads) = .error e :: records sep [] reads := by
  cases e with
  | interrupted => exact absurd rfl he
  | _ => rfl

/-- No more records than bytes and reads. -/
def weight : List (Read α) → Nat
  | [] => 0
  | .ok b :: reads => b.length + 1 + weight reads
  | .error _ :: reads => 1 + weight reads

variable (sep) in
theorem length_records (line : List α) (reads : List (Read α)) :
    (records sep line reads).length ≤ weight reads := by
  induction reads generalizing line with
  | nil => exact Nat.le_refl 0
  | cons read reads ih =>
    rcases read with e | _ | ⟨b, bs⟩
    · rw [weight]
      by_cases he : e = .interrupted
      · rw [he, records]
        have hrest := ih line
        omega
      · rw [records_error line he, List.length_cons]
        have hrest := ih []
        omega
    · rw [records, weight, List.length_cons]
      have hrest := ih []
      omega
    · rw [records, weight, List.length_append, List.length_map, length_linesFrom]
      have hrest := ih (openFrom sep line (b :: bs))
      have hcount : (b :: bs).count sep ≤ (b :: bs).length := List.count_le_length
      omega

/-- An interruption leaves no trace. -/
theorem records_filter (line : List α) (reads : List (Read α)) :
    records sep line (reads.filter (· ≠ .error .interrupted)) = records sep line reads := by
  induction reads generalizing line with
  | nil => rfl
  | cons read reads ih =>
    by_cases hread : read = .error .interrupted
    · rw [List.filter_cons_of_neg (by simpa using hread), hread]
      exact ih line
    · rw [List.filter_cons_of_pos (by simpa using hread)]
      rcases read with e | _ | ⟨b, bs⟩
      · have he : e ≠ .interrupted := fun h => hread (congrArg Except.error h)
        rw [records_error line he, records_error line he, ih]
      · rw [records, records, ih]
      · rw [records, records, ih]

/-! ## Pieces that arrive without an error -/

variable (sep) in
/-- The records of some pieces, one read each. -/
def segments (line : List α) : List (List α) → List (List α)
  | [] => []
  | [] :: ps => line :: segments [] ps
  | (b :: bs) :: ps =>
    (linesFrom sep line (b :: bs)).map (· ++ [sep]) ++
      segments (openFrom sep line (b :: bs)) ps

variable (sep) in
/-- What they leave open. -/
def openAfter (line : List α) : List (List α) → List α
  | [] => line
  | [] :: ps => openAfter [] ps
  | (b :: bs) :: ps => openAfter (openFrom sep line (b :: bs)) ps

theorem records_pieces (line : List α) (ps : List (List α)) (more : List (Read α)) :
    records sep line (ps.map .ok ++ more) =
      (segments sep line ps).map .ok ++ records sep (openAfter sep line ps) more := by
  induction ps generalizing line with
  | nil => rfl
  | cons p ps ih =>
    cases p with
    | nil =>
      rw [List.map_cons, List.cons_append, records, ih]
      rfl
    | cons b bs =>
      rw [List.map_cons, List.cons_append, records, ih, segments, openAfter, List.map_append,
        List.map_map, List.append_assoc]
      rfl

/-- Pieces that are not empty make up one stream. -/
theorem segments_eq {ps : List (List α)} (line : List α) (h : ∀ p ∈ ps, p ≠ []) :
    segments sep line ps = (linesFrom sep line ps.flatten).map (· ++ [sep]) ∧
      openAfter sep line ps = openFrom sep line ps.flatten := by
  induction ps generalizing line with
  | nil => exact ⟨rfl, rfl⟩
  | cons p ps ih =>
    obtain ⟨hp, hps⟩ := List.forall_mem_cons.mp h
    cases p with
    | nil => exact absurd rfl hp
    | cons b bs =>
      obtain ⟨hsegments, hopen⟩ := ih (openFrom sep line (b :: bs)) hps
      rw [List.flatten_cons, linesFrom_append_stream, openFrom_append, List.map_append]
      exact ⟨congrArg _ hsegments, hopen⟩

/-- An empty piece is one record too many. -/
theorem length_segments (line : List α) (ps : List (List α)) :
    (segments sep line ps).length = ps.flatten.count sep + ps.count [] := by
  induction ps generalizing line with
  | nil => rfl
  | cons p ps ih =>
    cases p with
    | nil =>
      rw [segments, List.length_cons, ih, List.flatten_cons, List.nil_append,
        List.count_cons_self]
      rfl
    | cons b bs =>
      rw [segments, List.length_append, List.length_map, length_linesFrom, ih,
        List.flatten_cons, List.count_append, List.count_cons_of_ne (List.cons_ne_nil b bs),
        Nat.add_assoc]

end LineReader
