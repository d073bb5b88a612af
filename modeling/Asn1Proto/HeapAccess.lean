import Asn1Proto.NameRewrite
import Asn1Proto.ValuePrint

namespace Asn1Proto

/-- A store `p[index] = …` into a heap block of `size` bytes. -/
structure Store where
  index : Int
  size : Int
  deriving DecidableEq, Repr

/-- The store lands inside its block. -/
def Store.InBounds (w : Store) : Prop :=
  0 ≤ w.index ∧ w.index < w.size

instance (w : Store) : Decidable w.InBounds :=
  inferInstanceAs (Decidable (0 ≤ w.index ∧ w.index < w.size))

/-- The stores of the loop `toSnakeCaseDup` and `escapeQuotesDup` both run over a `strdup`ed
copy of a string of `origlen` characters, from position `i` with `added` and the block's
current `size`, given how many characters each remaining turn writes. A turn that writes
two first reallocates the block to `origlen + added + 1`, then stores at `i + added` and
`i + added + 1` and counts one more in `added`; one that writes one stores at `i + added`;
one that writes none (the leading `'&'` of `toSnakeCaseDup`) sets `added` to `-1`. The
terminator goes to `i + added` once the string ends, where `i` is `origlen`. -/
def rewriteStores (origlen : Nat) : List Nat → Nat → Int → Int → List Store
  | [], i, added, size => [⟨i + added, size⟩]
  | 0 :: widths, i, _, size => rewriteStores origlen widths (i + 1) (-1) size
  | 1 :: widths, i, added, size => ⟨i + added, size⟩ :: rewriteStores origlen widths (i + 1) added size
  | _ :: widths, i, added, _ =>
    ⟨i + added, origlen + added + 1⟩ :: ⟨i + added + 1, origlen + added + 1⟩ ::
      rewriteStores origlen widths (i + 1) (added + 1) (origlen + added + 1)

/-- How many characters each turn of `toSnakeCaseDup`'s loop writes. -/
def snakeWidths (tocase : SnakeCase) (first lastChanged : Bool) : List Char → List Nat
  | [] => []
  | c :: rest =>
    (snakeChar tocase first lastChanged c).1.length ::
      snakeWidths tocase false (snakeChar tocase first lastChanged c).2 rest

/-- The stores of `toSnakeCaseDup` into `snakeCase`, `strdup`ed with `origlen + 1` bytes. -/
def toSnakeCaseDupStores (s : String) (tocase : SnakeCase) : List Store :=
  rewriteStores s.length (snakeWidths tocase true false s.toList) 0 0 (s.length + 1)

/-- The stores of `escapeQuotesDup` into `escaped`, `strdup`ed with `origlen + 1` bytes. -/
def escapeQuotesDupStores (s : String) : List Store :=
  rewriteStores s.length (s.toList.map fun c => if c = '"' then 2 else 1) 0 0 (s.length + 1)

/-- The run lemma of the rewriting loop, from a state past any turn that writes nothing:
every store lands at most one past its block, and every store lands inside it exactly when
no turn left writes two characters and the terminator's slot `origlen + added` is inside
the current block. -/
theorem rewriteStores_bounds (origlen : Nat) (widths : List Nat) (i : Nat) (added size : Int)
    (noEmpty : 0 ∉ widths) (turns : i + widths.length = origlen) (start : 0 ≤ i + added)
    (room : origlen + added ≤ size) :
    (∀ w ∈ rewriteStores origlen widths i added size, 0 ≤ w.index ∧ w.index ≤ w.size) ∧
      ((∀ w ∈ rewriteStores origlen widths i added size, w.InBounds) ↔
        (∀ n ∈ widths, n ≤ 1) ∧ origlen + added < size) := by
  induction widths generalizing i added size with
  | nil =>
    simp only [List.length_nil, Nat.add_zero] at turns
    subst turns
    simp only [rewriteStores, List.mem_singleton, forall_eq, Store.InBounds, List.not_mem_nil,
      false_implies, implies_true, true_and]
    omega
  | cons n widths ih =>
    rw [List.mem_cons, not_or] at noEmpty
    simp only [List.length_cons] at turns
    match n, noEmpty.1 with
    | 1, _ =>
      obtain ⟨within, exact⟩ := ih (i + 1) added size noEmpty.2 (by omega) (by omega) room
      have first : (⟨i + added, size⟩ : Store).InBounds := ⟨start, show (i : Int) + added < size by omega⟩
      simp only [rewriteStores, List.forall_mem_cons, first, true_and, exact, Nat.le_refl]
      exact ⟨⟨⟨start, by omega⟩, within⟩, trivial⟩
    | n + 2, _ =>
      obtain ⟨within, exact⟩ := ih (i + 1) (added + 1) (origlen + added + 1) noEmpty.2 (by omega)
        (by omega) (by omega)
      have wide : ¬ n + 2 ≤ 1 := by omega
      have full : ¬ (origlen : Int) + (added + 1) < origlen + added + 1 := by omega
      simp only [rewriteStores, List.forall_mem_cons, exact, wide, full, and_false, false_and,
        iff_false, not_and]
      exact ⟨⟨⟨start, by omega⟩, ⟨by omega, by omega⟩, within⟩, trivial⟩

/-- After the first character every turn of `toSnakeCaseDup` writes one or two characters. -/
theorem snakeChar_length_pos (tocase : SnakeCase) (lastChanged : Bool) (c : Char) :
    0 < (snakeChar tocase false lastChanged c).1.length := by
  simp only [snakeChar, Bool.false_eq_true, false_and, if_false, apply_ite Prod.fst,
    apply_ite List.length, List.length_cons, List.length_nil]
  repeat' refine iteInduction (fun _ => ?_) (fun _ => ?_)
  all_goals decide

theorem snakeWidths_length (tocase : SnakeCase) (first lastChanged : Bool) (s : List Char) :
    (snakeWidths tocase first lastChanged s).length = s.length := by
  induction s generalizing first lastChanged with
  | nil => rfl
  | cons c s ih => simp only [snakeWidths, List.length_cons, ih]

theorem zero_not_mem_snakeWidths (tocase : SnakeCase) (lastChanged : Bool) (s : List Char) :
    0 ∉ snakeWidths tocase false lastChanged s := by
  induction s generalizing lastChanged with
  | nil => exact List.not_mem_nil 0
  | cons c s ih =>
    rw [snakeWidths, List.mem_cons, not_or]
    exact ⟨Nat.ne_of_lt (snakeChar_length_pos tocase lastChanged c), ih _⟩

theorem escapeQuotesDupStores_bounds (s : String) :
    (∀ w ∈ escapeQuotesDupStores s, 0 ≤ w.index ∧ w.index ≤ w.size) ∧
      ((∀ w ∈ escapeQuotesDupStores s, w.InBounds) ↔ '"' ∉ s.toList) := by
  obtain ⟨chars⟩ := s
  have run := rewriteStores_bounds chars.length (chars.map fun c => if c = '"' then 2 else 1) 0 0
    (chars.length + 1) (by simp only [List.mem_map, not_exists, not_and]; intro c _; split <;> decide)
    (by simp only [List.length_map, Nat.zero_add]) (by omega) (by omega)
  have noQuote : (∀ n ∈ chars.map (fun c => if c = '"' then 2 else 1), n ≤ 1) ↔ '"' ∉ chars := by
    simp only [List.mem_map, forall_exists_index, and_imp, forall_apply_eq_imp_iff₂]
    exact ⟨fun small quote => by simpa using small _ quote, fun none c member =>
      Nat.le_of_eq (if_neg fun same : c = '"' => none (same ▸ member))⟩
  exact ⟨run.1, run.2.trans ⟨fun both => noQuote.1 both.1, fun none => ⟨noQuote.2 none, by omega⟩⟩⟩

theorem toSnakeCaseDupStores_bounds (s : String) (tocase : SnakeCase) :
    (∀ w ∈ toSnakeCaseDupStores s tocase, 0 ≤ w.index ∧ w.index ≤ w.size) ∧
      ((∀ w ∈ toSnakeCaseDupStores s tocase, w.InBounds) ↔
        ∀ n ∈ snakeWidths tocase true false s.toList, n ≤ 1) := by
  obtain ⟨_ | ⟨c, rest⟩⟩ := s
  · have run := rewriteStores_bounds 0 [] 0 0 1 (List.not_mem_nil 0) rfl (by omega) (by omega)
    exact ⟨run.1, run.2.trans ⟨fun both => both.1, fun small => ⟨small, by omega⟩⟩⟩
  have turns := snakeWidths_length tocase false (snakeChar tocase true false c).2 rest
  have tail := zero_not_mem_snakeWidths tocase (snakeChar tocase true false c).2 rest
  show (∀ w ∈ rewriteStores (rest.length + 1) (_ :: _) 0 0 (rest.length + 1 + 1), _) ∧
    ((∀ w ∈ rewriteStores (rest.length + 1) (_ :: _) 0 0 (rest.length + 1 + 1), _) ↔ _)
  by_cases empty : (snakeChar tocase true false c).1.length = 0
  · -- the leading `&`: nothing is stored and `added` becomes `-1`
    rw [empty, rewriteStores]
    have run := rewriteStores_bounds (rest.length + 1) _ 1 (-1) (rest.length + 1 + 1) tail
      (by omega) (by omega) (by omega)
    simp only [snakeWidths, empty, List.forall_mem_cons, Nat.zero_le, true_and]
    exact ⟨run.1, run.2.trans ⟨fun both => both.1, fun small => ⟨small, by omega⟩⟩⟩
  · have run := rewriteStores_bounds (rest.length + 1) (_ :: _) 0 0 (rest.length + 1 + 1)
      (List.not_mem_cons_of_ne_of_not_mem (Ne.symm empty) tail)
      (by rw [List.length_cons]; omega) (by omega) (by omega)
    exact ⟨run.1, run.2.trans ⟨fun both => both.1, fun small => ⟨small, by omega⟩⟩⟩

theorem map_range_succ {α : Type} (f : Nat → α) (n : Nat) :
    (List.range (n + 1)).map f = f 0 :: (List.range n).map fun k => f (k + 1) := by
  rw [List.range_succ_eq_map, List.map_cons, List.map_map]
  rfl

/-- Where the rewriting loop stores, when every turn writes one or two characters: one
position after another from `i + added`, the terminator right after the last character. -/
theorem rewriteStores_indices (origlen : Nat) (widths : List Nat) (i : Nat) (added size : Int)
    (turns : ∀ n ∈ widths, 1 ≤ n ∧ n ≤ 2) :
    (rewriteStores origlen widths i added size).map Store.index =
      (List.range (widths.sum + 1)).map fun k => ((i + k : Nat) : Int) + added := by
  induction widths generalizing i added size with
  | nil => rfl
  | cons n widths ih =>
    obtain ⟨one, two⟩ := turns n (List.mem_cons_self _ _)
    have later := fun i added size => ih i added size fun m member => turns m (List.mem_cons_of_mem _ member)
    rw [List.sum_cons]
    match n, one, two with
    | 1, _, _ =>
      rw [rewriteStores, List.map_cons, later, show 1 + widths.sum + 1 = widths.sum + 1 + 1 by omega]
      conv_rhs => rw [map_range_succ]
      exact List.cons_eq_cons.2 ⟨by dsimp only; omega, List.map_congr_left fun k _ => by omega⟩
    | 2, _, _ =>
      rw [rewriteStores, List.map_cons, List.map_cons, later,
        show 2 + widths.sum + 1 = widths.sum + 1 + 1 + 1 by omega]
      conv_rhs => rw [map_range_succ, map_range_succ]
      exact List.cons_eq_cons.2 ⟨by dsimp only; omega,
        List.cons_eq_cons.2 ⟨by dsimp only; omega, List.map_congr_left fun k _ => by omega⟩⟩
      all_goals decide

theorem snakeChar_length_le (tocase : SnakeCase) (first lastChanged : Bool) (c : Char) :
    (snakeChar tocase first lastChanged c).1.length ≤ 2 := by
  show 2 ≥ _
  simp only [snakeChar, apply_ite Prod.fst, apply_ite List.length, List.length_cons, List.length_nil]
  repeat' refine iteInduction (fun _ => ?_) (fun _ => ?_)
  all_goals decide

theorem snakeLoop_length (tocase : SnakeCase) (first lastChanged : Bool) (s : List Char) :
    (snakeLoop tocase first lastChanged s).length = (snakeWidths tocase first lastChanged s).sum := by
  induction s generalizing first lastChanged with
  | nil => rfl
  | cons c s ih => rw [snakeLoop_cons, List.length_append, ih, snakeWidths, List.sum_cons]

theorem escapeQuotesDup_length (s : List Char) :
    (escapeQuotesDup s).length = (s.map fun c => if c = '"' then 2 else 1).sum := by
  induction s with
  | nil => rfl
  | cons c s ih =>
    rw [escapeQuotesDup, List.length_append, ih, List.map_cons, List.sum_cons]
    split <;> rfl

theorem snakeWidths_le (tocase : SnakeCase) (first lastChanged : Bool) (s : List Char) :
    ∀ n ∈ snakeWidths tocase first lastChanged s, n ≤ 2 := by
  induction s generalizing first lastChanged with
  | nil => exact fun _ member => absurd member (List.not_mem_nil _)
  | cons c s ih =>
    rw [snakeWidths]
    exact List.forall_mem_cons.2 ⟨snakeChar_length_le tocase first lastChanged c, ih _ _⟩

/-- The stores of `toSnakeCaseDup` write its result in place: one position after another
from 0, and the terminator at the length of the result. -/
theorem toSnakeCaseDupStores_indices (s : String) (tocase : SnakeCase) :
    (toSnakeCaseDupStores s tocase).map Store.index =
      (List.range ((toSnakeCaseDup s tocase).length + 1)).map fun k : Nat => (k : Int) := by
  obtain ⟨_ | ⟨c, rest⟩⟩ := s
  · rfl
  have tail : ∀ n ∈ snakeWidths tocase false (snakeChar tocase true false c).2 rest, 1 ≤ n ∧ n ≤ 2 :=
    fun n member => ⟨Nat.pos_of_ne_zero fun zero => zero_not_mem_snakeWidths tocase _ rest (zero ▸ member),
      snakeWidths_le tocase false _ rest n member⟩
  show (rewriteStores (rest.length + 1) (snakeWidths tocase true false (c :: rest)) 0 0
      (rest.length + 1 + 1)).map Store.index =
    (List.range ((snakeLoop tocase true false (c :: rest)).length + 1)).map _
  rw [snakeLoop_length, snakeWidths]
  by_cases empty : (snakeChar tocase true false c).1.length = 0
  · rw [empty, rewriteStores, rewriteStores_indices _ _ _ _ _ tail, List.sum_cons]
    simp only [Nat.zero_add]
    refine List.map_congr_left fun k _ => ?_
    push_cast
    ring
  · rw [rewriteStores_indices _ _ _ _ _ (List.forall_mem_cons.2
      ⟨⟨Nat.pos_of_ne_zero empty, snakeChar_length_le tocase true false c⟩, tail⟩)]
    exact List.map_congr_left fun k _ => by simp

/-- The stores of `escapeQuotesDup` write its result in place: one position after another
from 0, and the terminator at the length of the result. -/
theorem escapeQuotesDupStores_indices (s : String) :
    (escapeQuotesDupStores s).map Store.index =
      (List.range ((escapeQuotesDup s.toList).length + 1)).map fun k : Nat => (k : Int) := by
  rw [escapeQuotesDupStores, rewriteStores_indices, escapeQuotesDup_length]
  · exact List.map_congr_left fun k _ => by simp
  · simp only [List.mem_map]
    rintro n ⟨c, -, rfl⟩
    split <;> decide

/-- `toSnakeCaseDup` and `escapeQuotesDup` store at most one byte past their block, and they
do so exactly when a turn writes two characters: the reallocation to `origlen + added + 1`
makes room for that turn's pair but not for the terminator, which `added` has moved on. -/
theorem rewriters_store_terminator_past_block (s : String) (tocase : SnakeCase) :
    (∀ w ∈ toSnakeCaseDupStores s tocase, 0 ≤ w.index ∧ w.index ≤ w.size) ∧
      ((∀ w ∈ toSnakeCaseDupStores s tocase, w.InBounds) ↔
        ∀ n ∈ snakeWidths tocase true false s.toList, n ≤ 1) ∧
      (∀ w ∈ escapeQuotesDupStores s, 0 ≤ w.index ∧ w.index ≤ w.size) ∧
      ((∀ w ∈ escapeQuotesDupStores s, w.InBounds) ↔ '"' ∉ s.toList) :=
  ⟨(toSnakeCaseDupStores_bounds s tocase).1, (toSnakeCaseDupStores_bounds s tocase).2,
    escapeQuotesDupStores_bounds s⟩

example : toSnakeCaseDupStores "aB" .lower = [⟨0, 3⟩, ⟨1, 3⟩, ⟨2, 3⟩, ⟨3, 3⟩] ∧
    escapeQuotesDupStores "\"" = [⟨0, 2⟩, ⟨1, 2⟩, ⟨2, 2⟩] := by decide

/-- The positions of `mixedCase` that `toPascalCaseDup` reads and those of `pascalCaseDup` it
writes, from position `i` with `removed` characters dropped, over `mem`: the bytes from
`mixedCase[0]` on, the terminator and whatever lies past it included. A read past `mem`
gives `'\0'`. A separator writes the next character upper-cased over its own slot and the
loop steps over that character, so a separator right before the terminator steps over the
terminator and the loop goes on reading. -/
def pascalAccesses (mem : List Char) (i removed : Nat) : List Nat × List Nat :=
  if h : i < mem.length then
    if mem[i] = '\x00' then ([i], [i - removed])
    else if IsPascalSeparator mem[i] then
      ((i :: (i + 1) :: (pascalAccesses mem (i + 2) (removed + 1)).1),
        (i - removed) :: (pascalAccesses mem (i + 2) (removed + 1)).2)
    else
      (i :: (pascalAccesses mem (i + 1) removed).1, (i - removed) :: (pascalAccesses mem (i + 1) removed).2)
  else ([i], [i - removed])
termination_by mem.length - i

theorem mem_pascalAccesses_self (mem : List Char) (i removed : Nat) :
    i ∈ (pascalAccesses mem i removed).1 := by
  rw [pascalAccesses]
  split
  · split
    · exact List.mem_singleton_self i
    · split <;> exact List.mem_cons_self _ _
  · exact List.mem_singleton_self i

section Memory

variable {s beyond : List Char} {i : Nat}

theorem lt_of_getElem_ne_nul (start : i ≤ s.length) (h : i < (s ++ '\x00' :: beyond).length)
    (notNul : ¬(s ++ '\x00' :: beyond)[i] = '\x00') : i < s.length := by
  refine Nat.lt_of_le_of_ne start fun last => notNul ?_
  subst last
  rw [List.getElem_append_right (Nat.le_refl _)]
  simp only [Nat.sub_self, List.getElem_cons_zero]

theorem add_two_le_of_separator {rest : List Char} (clean : ∀ d ∈ s.getLast?, ¬ IsPascalSeparator d)
    (inside : i < s.length) (h : i < (s ++ rest).length)
    (sep : IsPascalSeparator (s ++ rest)[i]) : i + 2 ≤ s.length := by
  refine Nat.lt_of_le_of_ne inside fun last => clean s[i] ?_ ?_
  · rw [List.getLast?_eq_getElem?, ← last, Nat.add_sub_cancel, List.getElem?_eq_getElem inside]
    rfl
  · rwa [List.getElem_append_left inside] at sep

end Memory

/-- The run lemma of `toPascalCaseDup`'s loop on a string that does not end in a separator:
from any position of it, the reads stay within the string and its terminator and the
writes within the `strlen(s) + 1` bytes of the copy. -/
theorem pascalAccesses_within (s beyond : List Char)
    (clean : ∀ d ∈ s.getLast?, ¬ IsPascalSeparator d) (i removed : Nat) (start : i ≤ s.length) :
    (∀ k ∈ (pascalAccesses (s ++ '\x00' :: beyond) i removed).1, k ≤ s.length) ∧
      ∀ k ∈ (pascalAccesses (s ++ '\x00' :: beyond) i removed).2, k ≤ s.length := by
  induction i, removed using pascalAccesses.induct (s ++ '\x00' :: beyond) with
  | case1 i removed h nul =>
    rw [pascalAccesses, dif_pos h, if_pos nul]
    simp only [List.mem_singleton, forall_eq]
    omega
  | case2 i removed h notNul sep ih =>
    have inside := add_two_le_of_separator clean (lt_of_getElem_ne_nul start h notNul) h sep
    obtain ⟨reads, writes⟩ := ih (by omega)
    rw [pascalAccesses, dif_pos h, if_neg notNul, if_pos sep]
    simp only [List.forall_mem_cons]
    exact ⟨⟨by omega, by omega, reads⟩, by omega, writes⟩
  | case3 i removed h notNul notSep ih =>
    have inside := lt_of_getElem_ne_nul start h notNul
    obtain ⟨reads, writes⟩ := ih (by omega)
    rw [pascalAccesses, dif_pos h, if_neg notNul, if_neg notSep]
    simp only [List.forall_mem_cons]
    exact ⟨⟨by omega, reads⟩, by omega, writes⟩
  | case4 i removed outside =>
    rw [pascalAccesses, dif_neg outside]
    simp only [List.mem_singleton, forall_eq]
    omega

/-- The writes of `toPascalCaseDup`'s loop on a string that does not end in a separator, from
any position of it: one position after another from `i - removed`, one for each character
`pascalLoop` gives for the rest of the string, then the terminator's. -/
theorem pascalAccesses_writes (s beyond : List Char) (noNul : '\x00' ∉ s)
    (clean : ∀ d ∈ s.getLast?, ¬ IsPascalSeparator d) (i removed : Nat) (start : i ≤ s.length)
    (behind : removed ≤ i) (first lastWasUpper : Bool) :
    (pascalAccesses (s ++ '\x00' :: beyond) i removed).2 =
      (List.range ((pascalLoop first lastWasUpper (s.drop i)).length + 1)).map (· + (i - removed)) := by
  induction i, removed using pascalAccesses.induct (s ++ '\x00' :: beyond)
    generalizing first lastWasUpper with
  | case1 i removed h nul =>
    have atEnd : i = s.length := by
      refine Nat.le_antisymm start (Nat.not_lt.1 fun inside => noNul ?_)
      rw [List.getElem_append_left inside] at nul
      exact nul ▸ List.getElem_mem inside
    rw [pascalAccesses, dif_pos h, if_pos nul, atEnd, List.drop_length, pascalLoop_nil]
    show [_] = [0 + _]
    rw [Nat.zero_add]
  | case2 i removed h notNul sep ih =>
    have inside := lt_of_getElem_ne_nul start h notNul
    have two := add_two_le_of_separator clean inside h sep
    rw [List.getElem_append_left inside] at sep
    rw [pascalAccesses, dif_pos h, if_neg notNul, if_pos (List.getElem_append_left inside ▸ sep)]
    dsimp only
    rw [ih (by omega) (by omega) false true, List.drop_eq_getElem_cons inside,
      List.drop_eq_getElem_cons (show i + 1 < s.length by omega), pascalLoop, if_pos sep,
      List.length_cons]
    conv_rhs => rw [map_range_succ]
    exact List.cons_eq_cons.2 ⟨by simp, List.map_congr_left fun k _ => by omega⟩
  | case3 i removed h notNul notSep ih =>
    have inside := lt_of_getElem_ne_nul start h notNul
    rw [pascalAccesses, dif_pos h, if_neg notNul, if_neg notSep]
    dsimp only
    rw [ih (by omega) (by omega) false (pascalChar first lastWasUpper s[i]).2,
      List.drop_eq_getElem_cons inside, pascalLoop_cons_of_not_separator _
        (List.getElem_append_left inside ▸ notSep), List.length_cons]
    conv_rhs => rw [map_range_succ]
    exact List.cons_eq_cons.2 ⟨by simp, List.map_congr_left fun k _ => by omega⟩
  | case4 i removed outside =>
    exact absurd (by simp only [List.length_append, List.length_cons]; omega) outside

/-- On a string that does not end in a separator, `toPascalCaseDup` writes its result in
place: one position of the copy after another from 0, and the terminator at the length of
the result. -/
theorem toPascalCaseDup_writes_in_place (s beyond : List Char) (noNul : '\x00' ∉ s)
    (clean : ∀ d ∈ s.getLast?, ¬ IsPascalSeparator d) :
    (pascalAccesses (s ++ '\x00' :: beyond) 0 0).2 = List.range ((toPascalCaseDup ⟨s⟩).length + 1) := by
  rw [pascalAccesses_writes s beyond noNul clean 0 0 (Nat.zero_le _) (Nat.le_refl 0) true false]
  exact List.map_id'' (fun k => rfl) _

theorem dash_writes_in_place : '\x00' ∉ ['a', '-', 'b'] ∧
    (∀ d ∈ ['a', '-', 'b'].getLast?, ¬ IsPascalSeparator d) ∧
    (pascalAccesses (['a', '-', 'b'] ++ '\x00' :: []) 0 0).2 =
      List.range ((toPascalCaseDup ⟨['a', '-', 'b']⟩).length + 1) :=
  ⟨by decide, by decide, toPascalCaseDup_writes_in_place ['a', '-', 'b'] [] (by decide) (by decide)⟩

/-- The run lemma of `toPascalCaseDup`'s loop on `t ++ [c]` with `c` a separator: from any
position of `t` the loop lands on `c`, steps over the terminator after it and reads the byte
past the terminator. -/
theorem pascalAccesses_past_terminator (t beyond : List Char) (c : Char) (noNul : '\x00' ∉ t)
    (sep : IsPascalSeparator c) (clean : ∀ d ∈ t.getLast?, ¬ IsPascalSeparator d) (i removed : Nat)
    (start : i ≤ t.length) :
    t.length + 2 ∈ (pascalAccesses (t ++ c :: '\x00' :: beyond) i removed).1 := by
  have atSeparator (h : t.length < (t ++ c :: '\x00' :: beyond).length) :
      (t ++ c :: '\x00' :: beyond)[t.length] = c := by
    rw [List.getElem_append_right (Nat.le_refl _)]
    simp only [Nat.sub_self, List.getElem_cons_zero]
  induction i, removed using pascalAccesses.induct (t ++ c :: '\x00' :: beyond) with
  | case1 i removed h nul =>
    by_cases inT : i < t.length
    · rw [List.getElem_append_left inT] at nul
      exact absurd (nul ▸ List.getElem_mem inT) noNul
    · obtain rfl : i = t.length := by omega
      rw [atSeparator h] at nul
      subst nul
      rcases sep with bad | bad | bad <;> exact absurd bad (by decide)
  | case2 i removed h notNul here ih =>
    rw [pascalAccesses, dif_pos h, if_neg notNul, if_pos here]
    refine List.mem_cons_of_mem _ (List.mem_cons_of_mem _ ?_)
    by_cases inT : i < t.length
    · exact ih (add_two_le_of_separator clean inT h here)
    · obtain rfl : i = t.length := by omega
      exact mem_pascalAccesses_self _ _ _
  | case3 i removed h notNul notSep ih =>
    have inT : i < t.length := by
      refine Nat.lt_of_le_of_ne start fun last => notSep ?_
      subst last
      rwa [atSeparator h]
    rw [pascalAccesses, dif_pos h, if_neg notNul, if_neg notSep]
    exact List.mem_cons_of_mem _ (ih inT)
  | case4 i removed outside =>
    exact absurd (by simp only [List.length_append, List.length_cons]; omega) outside

/-- `toPascalCaseDup` reads and writes only positions `0 .. strlen(s)` when `s` does not end
in a separator; when `s` is `t` followed by a separator the loop lands on (no NUL in `t`,
and `t` does not end in a separator), it reads position `strlen(s) + 1`, past the
terminator. -/
theorem toPascalCaseDup_reads_past_terminator (s beyond : List Char) (noNul : '\x00' ∉ s) :
    ((∀ d ∈ s.getLast?, ¬ IsPascalSeparator d) →
      (∀ k ∈ (pascalAccesses (s ++ '\x00' :: beyond) 0 0).1, k ≤ s.length) ∧
        ∀ k ∈ (pascalAccesses (s ++ '\x00' :: beyond) 0 0).2, k ≤ s.length) ∧
      ∀ t c, s = t ++ [c] → IsPascalSeparator c → (∀ d ∈ t.getLast?, ¬ IsPascalSeparator d) →
        s.length + 1 ∈ (pascalAccesses (s ++ '\x00' :: beyond) 0 0).1 := by
  refine ⟨fun clean => pascalAccesses_within s beyond clean 0 0 (Nat.zero_le _), ?_⟩
  rintro t c rfl sep clean
  have noNulT : '\x00' ∉ t := fun nul => noNul (List.mem_append_left _ nul)
  rw [List.append_assoc, List.singleton_append, List.length_append, List.length_singleton]
  exact pascalAccesses_past_terminator t beyond c noNulT sep clean 0 0 (Nat.zero_le _)

/-- `"a-"`: the loop reads position 3 of a string of length 2. -/
theorem trailing_dash_reads_past_terminator :
    '\x00' ∉ ['a', '-'] ∧ 3 ∈ (pascalAccesses ['a', '-', '\x00'] 0 0).1 :=
  ⟨by decide, (toPascalCaseDup_reads_past_terminator ['a', '-'] [] (by decide)).2 ['a'] '-' rfl
    (Or.inl rfl) (by decide)⟩

end Asn1Proto
