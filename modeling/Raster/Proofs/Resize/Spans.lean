import Raster.Resize.Area.Share

/-!
The spans of a decimation table whose destinations ascend.  Main statements: `spans?_eq`, every
destination's span lies between two counts of entries, and `exists_spans?`, it holds exactly the
entries of that destination.
-/

namespace Raster.Area.Share

variable {S : Type} {table : List (Share S)}

/-- Destinations never go down along the table. -/
def Ascending (table : List (Share S)) : Prop :=
  table.Pairwise fun first second => first.destination ≤ second.destination

/-- How many entries belong to destinations before `d`. -/
def before (table : List (Share S)) (d : Nat) : Nat :=
  table.countP fun share => share.destination < d

/-- Counts of entries grow with the destination. -/
theorem before_mono (table : List (Share S)) {d e : Nat} (order : d ≤ e) :
    before table d ≤ before table e :=
  List.countP_mono_left fun share _ below => by
    -- Whatever lies before `d` lies before `e`.
    simp only [decide_eq_true_eq] at below ⊢
    omega

/-- Where a table splits at a destination, the entries before it are those of the front. -/
theorem before_append {front rest : List (Share S)} {d : Nat}
    (low : ∀ share ∈ front, share.destination < d)
    (high : ∀ share ∈ rest, d ≤ share.destination) : before (front ++ rest) d = front.length := by
  -- Everything in front counts, and nothing behind it does.
  have all : before front d = front.length :=
    List.countP_eq_length.mpr fun share member => by simpa using low share member
  have later : before rest d = 0 :=
    List.countP_eq_zero.mpr fun share member => by simpa using high share member
  rw [before, List.countP_append, ← before, ← before, all, later, Nat.add_zero]

/-- No entry of an ascending table has a lesser destination than its first one. -/
theorem Ascending.head_le {share : Share S} (ascending : Ascending table)
    (first : share ∈ table.head?) : ∀ other ∈ table, share.destination ≤ other.destination := by
  cases table with
  | nil => simp
  -- The first entry is the head, and ascent puts the head below every other.
  | cons head tail =>
    obtain rfl : head = share := by simpa using first
    simpa using (List.pairwise_cons.mp ascending).1

/-- An ascending table lists the entries before a destination first, and then all others. -/
theorem filter_append_filter (ascending : Ascending table) (d : Nat) :
    (table.filter fun share => share.destination < d) ++
      (table.filter fun share => d ≤ share.destination) = table := by
  induction table with
  | nil => rfl
  | cons head tail ih =>
    have rest : Ascending tail := (List.pairwise_cons.mp ascending).2
    by_cases early : head.destination < d
    · rw [List.filter_cons_of_pos (by simpa using early),
        List.filter_cons_of_neg (by simpa using early), List.cons_append, ih rest]
    -- From the first entry that does not come before the destination on, none does.
    · have late : ∀ share ∈ head :: tail, d ≤ share.destination := fun share member =>
        Nat.le_trans (Nat.le_of_not_lt early) (ascending.head_le (by simp) share member)
      rw [List.filter_eq_nil_iff.mpr fun share member => by simpa using late share member,
        List.filter_eq_self.mpr fun share member => by simpa using late share member,
        List.nil_append]

section Order

variable (ascending : Ascending table)

include ascending

/-- As many entries as come before a destination, taken from the start, are those entries. -/
theorem take_before (d : Nat) :
    table.take (before table d) = table.filter fun share => share.destination < d := by
  have count : (table.filter fun share => share.destination < d).length = before table d :=
    List.countP_eq_length_filter.symm
  -- An ascending table is its part below `d` followed by its part from `d` on.
  calc table.take (before table d)
      = ((table.filter fun share => share.destination < d) ++
          table.filter fun share => d ≤ share.destination).take (before table d) := by
        rw [filter_append_filter ascending]
    _ = table.filter fun share => share.destination < d := List.take_left' count

/-- What is left after the entries before a destination are all others. -/
theorem drop_before (d : Nat) :
    table.drop (before table d) = table.filter fun share => d ≤ share.destination := by
  -- The two halves of a cut give the table back, and the first half is known.
  have whole := List.take_append_drop (before table d) table
  rw [take_before ascending] at whole
  exact List.append_cancel_left (whole.trans (filter_append_filter ascending d).symm)

/-- An entry stands among those counted before `d` exactly when its destination comes before `d`. -/
theorem lt_before_iff {share : Share S} {i : Nat} (entry : table[i]? = some share) (d : Nat) :
    i < before table d ↔ share.destination < d := by
  constructor
  · intro counted
    -- The entry is one of those taken.
    have taken : share ∈ table.take (before table d) :=
      List.mem_of_getElem? ((List.getElem?_take_of_lt counted).trans entry)
    rw [take_before ascending] at taken
    simpa using (List.mem_filter.mp taken).2
  · intro early
    refine Nat.lt_of_not_le fun past => ?_
    -- Otherwise it would be one of those left.
    have left : share ∈ table.drop (before table d) :=
      List.mem_of_getElem? (i := i - before table d) (by
        rw [List.getElem?_drop, Nat.add_sub_of_le past, entry])
    rw [drop_before ascending] at left
    have late : d ≤ share.destination := by simpa using (List.mem_filter.mp left).2
    omega

/-- The entries up to those of the next destination, less those before, are the entries of `d`. -/
theorem take_drop_before (d : Nat) :
    (table.drop (before table d)).take (before table (d + 1) - before table d) =
      table.filter fun share => share.destination = d := by
  -- Of the entries before the next destination, those before this one are dropped.
  have early : Ascending (table.filter fun share => share.destination < d + 1) :=
    ascending.filter _
  have same : before table d = before (table.filter fun share => share.destination < d + 1) d := by
    rw [before, before, List.countP_filter]
    refine List.countP_congr fun share _ => ?_
    simp only [Bool.and_eq_true, decide_eq_true_eq]
    omega
  rw [← List.drop_take, take_before ascending, same, drop_before early, List.filter_filter]
  refine List.filter_congr fun share _ => ?_
  rw [← Bool.decide_and]
  exact decide_eq_decide.mpr (by omega)

/-- The span between two counts of entries holds the entries of one destination. -/
theorem span_of?_before (d : Nat) :
    Span.of? ⟨before table d, before table (d + 1)⟩ table =
      some (table.filter fun share => share.destination = d) := by
  -- Counts of entries grow with the destination, and none exceeds the table.
  have grows := before_mono table (Nat.le_succ d)
  rw [Span.of?, if_pos ⟨grows, List.countP_le_length⟩, take_drop_before ascending]

end Order

/-- The span of a destination: between two counts of entries where it has some, otherwise empty. -/
def spanOf (table : List (Share S)) (d : Nat) : Span :=
  if d ∈ table.map destination then ⟨before table d, before table (d + 1)⟩ else ⟨0, 0⟩

/-- The span of a destination holds exactly its entries. -/
theorem of?_spanOf (ascending : Ascending table) (d : Nat) :
    (spanOf table d).of? table = some (table.filter fun share => share.destination = d) := by
  by_cases met : d ∈ table.map destination
  · rw [spanOf, if_pos met]
    exact span_of?_before ascending d
  -- A destination without entries keeps the empty span.
  · have empty : table.filter (fun share => share.destination = d) = [] :=
      List.filter_eq_nil_iff.mpr fun share member same =>
        met (List.mem_map.mpr ⟨share, member, by simpa using same⟩)
    rw [spanOf, if_neg met, empty]
    rfl

section Run

variable {closed rest : List (Share S)} {entry : Share S}
variable (ascending : Ascending (closed ++ [entry] ++ rest))

include ascending

/-- Up to an entry stand the entries before any destination past its own and not past the next. -/
theorem before_of_between {d : Nat} (low : entry.destination < d)
    (high : ∀ share ∈ rest, d ≤ share.destination) :
    before (closed ++ [entry] ++ rest) d = closed.length + 1 := by
  -- Everything up to the entry comes no later than it.
  obtain ⟨front, -, -⟩ := List.pairwise_append.mp ascending
  have past := (List.pairwise_append.mp front).2.2
  rw [before_append (fun share member => ?_) high, List.length_append, List.length_singleton]
  rcases List.mem_append.mp member with closed | last
  · exact Nat.lt_of_le_of_lt (past share closed entry (by simp)) low
  · rwa [List.mem_singleton.mp last]

/-- Where the run of an entry ends, everything after it belongs to later destinations. -/
theorem lt_of_ended (ended : rest.head?.map destination ≠ some entry.destination) :
    ∀ share ∈ rest, entry.destination < share.destination := by
  intro share member
  obtain ⟨-, order, split⟩ := List.pairwise_append.mp ascending
  obtain ⟨first, head⟩ : ∃ first, rest.head? = some first :=
    Option.isSome_iff_exists.mp (List.isSome_head?.mpr (List.ne_nil_of_mem member))
  -- The next entry comes no earlier and is of another destination, and the others follow it.
  have least := Ascending.head_le order head share member
  have above := split entry (by simp) first (List.mem_of_head? head)
  have different : first.destination ≠ entry.destination := fun same =>
    ended (by rw [head, Option.map_some, same])
  omega

end Run

/-- Closing spans at the rest of a table gives each destination met there its own span. -/
theorem exists_collectSpans? (closed rest : List (Share S)) (spans : Array Span) (start : Nat)
    (ascending : Ascending (closed ++ rest))
    (inside : ∀ share ∈ rest, share.destination < spans.size)
    (opened : ∀ share ∈ rest.head?, start = before (closed ++ rest) share.destination) :
    ∃ collected, collectSpans? spans closed.length start rest = some collected ∧
      ∀ d, collected[d]? = if d ∈ rest.map destination then
        some ⟨before (closed ++ rest) d, before (closed ++ rest) (d + 1)⟩ else spans[d]? := by
  -- By induction on the rest: each entry either goes on with the open run or closes its span.
  induction rest generalizing closed spans start with
  | nil => exact ⟨spans, rfl, fun d => by simp⟩
  | cons entry rest ih =>
    rw [List.append_cons] at ascending opened ⊢
    have order : Ascending rest := (List.pairwise_append.mp ascending).2.1
    have later : ∀ share ∈ rest, share.destination < spans.size := fun share member =>
      inside share (List.mem_cons_of_mem _ member)
    have length : (closed ++ [entry]).length = closed.length + 1 := by simp
    by_cases continued : rest.head?.map destination = some entry.destination
    -- The entry's run goes on, so its span stays open and the run's last entry will close it.
    · obtain ⟨next, first, same⟩ := Option.map_eq_some_iff.mp continued
      obtain ⟨collected, found, reads⟩ := ih (closed ++ [entry]) spans start ascending later
        fun share head => by
          obtain rfl : next = share := Option.some.inj (first.symm.trans head)
          rw [same, opened entry (by simp)]
      have met : entry.destination ∈ rest.map destination :=
        List.mem_map.mpr ⟨next, List.mem_of_head? first, same⟩
      have also : ∀ d, d ∈ (entry :: rest).map destination ↔ d ∈ rest.map destination := fun d => by
        rw [List.map_cons, List.mem_cons, or_iff_right_of_imp]
        rintro rfl
        exact met
      refine ⟨collected, ?_, fun d => ?_⟩
      · rw [length] at found
        rw [collectSpans?, if_pos continued, found]
      · rw [reads d]
        simp only [also]
    -- The run ends here, and everything after it belongs to later destinations.
    · have above := lt_of_ended ascending continued
      have room := inside entry (by simp)
      obtain ⟨collected, found, reads⟩ := ih (closed ++ [entry])
        (spans.setIfInBounds entry.destination ⟨start, closed.length + 1⟩)
        (closed.length + 1) ascending (by simpa using later) fun share head =>
          (before_of_between ascending (above share (List.mem_of_head? head))
            (order.head_le head)).symm
      have absent : entry.destination ∉ rest.map destination := fun member => by
        obtain ⟨share, held, same⟩ := List.mem_map.mp member
        have := above share held
        omega
      refine ⟨collected, ?_, fun d => ?_⟩
      · rw [length] at found
        rw [collectSpans?, if_neg continued, if_pos room, found]
      · rw [reads d]
        -- The span just written is the entry's own, and the later ones do not touch it.
        by_cases here : entry.destination = d
        · subst here
          rw [if_neg absent, if_pos (by simp), Array.getElem?_setIfInBounds_self_of_lt room,
            opened entry (by simp), before_of_between ascending (Nat.lt_succ_self _) above]
        · simp only [List.map_cons, List.mem_cons, Ne.symm here, false_or]
          rw [Array.getElem?_setIfInBounds_ne here]

variable {targetSize : Nat}

/-- An ascending table gives each destination its own span. -/
theorem spans?_eq (ascending : Ascending table)
    (inside : ∀ share ∈ table, share.destination < targetSize) :
    spans? table targetSize = some ((List.range targetSize).map (spanOf table)).toArray := by
  obtain ⟨spans, collected, reads⟩ := exists_collectSpans? [] table
    (Array.replicate targetSize ⟨0, 0⟩) 0 ascending (by simpa using inside)
    fun share head => by
      have start : before ([] ++ table) share.destination = 0 :=
        before_append (by simp) (ascending.head_le head)
      exact start.symm
  refine collected.trans (congrArg some (Array.ext_getElem? fun d => ?_))
  rw [reads d]
  by_cases bound : d < targetSize
  · have listed : ((List.range targetSize).map (spanOf table)).toArray[d]? =
        some (spanOf table d) := by simp [bound]
    rw [listed, spanOf, apply_ite some, List.nil_append, Array.getElem?_replicate, if_pos bound]
  -- Past the last destination nothing is met and nothing is stored.
  · have absent : d ∉ table.map destination := fun member => by
      obtain ⟨share, held, same⟩ := List.mem_map.mp member
      have := inside share held
      omega
    rw [if_neg absent]
    simp [bound]

/-- Every destination's span holds exactly the entries of that destination. -/
theorem exists_spans? (ascending : Ascending table)
    (inside : ∀ share ∈ table, share.destination < targetSize) :
    ∃ spans, spans? table targetSize = some spans ∧ ∀ d, d < targetSize →
      ∃ span, spans[d]? = some span ∧
        span.of? table = some (table.filter fun share => share.destination = d) :=
  -- Each destination's range is the one between the counts of entries below it and its successor.
  ⟨_, spans?_eq ascending inside, fun d bound =>
    ⟨spanOf table d, by simp [bound], of?_spanOf ascending d⟩⟩

end Raster.Area.Share
