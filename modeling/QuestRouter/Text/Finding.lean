import QuestRouter.Text.Str

/-!
# Finding a text in a longer one

The first occurrence in `a ++ b` is that in `a` if there is one. If there is none, and `b` begins with a character
that is not in the pattern, it is the first in `b`.
-/

namespace QuestRouter.Text

@[simp] theorem length_toAsciiUppercase (s : Str) : (toAsciiUppercase s).length = s.length := List.length_map _

theorem toAsciiUppercase_append (s t : Str) : toAsciiUppercase (s ++ t) = toAsciiUppercase s ++ toAsciiUppercase t :=
  List.map_append

variable {pat a b : Str} {i : Nat}

theorem find_le (found : find pat a = some i) : i + pat.length ≤ a.length := by
  induction a generalizing i with
  | nil =>
    rw [find] at found
    split at found
    · rename_i isPrefix
      obtain rfl := Option.some.inj found
      have none := List.prefix_nil.mp (List.isPrefixOf_iff_prefix.mp isPrefix)
      simp [none]
    · cases found
  | cons c a ih =>
    rw [find] at found
    split at found
    · rename_i isPrefix
      obtain rfl := Option.some.inj found
      have short := (List.isPrefixOf_iff_prefix.mp isPrefix).length_le
      omega
    · obtain ⟨j, later, rfl⟩ := Option.map_eq_some_iff.mp found
      have inside := ih later
      rw [List.length_cons]
      omega

theorem find_nil_append (found : find pat [] = some i) (b : Str) : find pat b = some i := by
  have inside := find_le found
  rw [List.length_nil] at inside
  obtain rfl : pat = [] := List.length_eq_zero_iff.mp (by omega)
  obtain rfl : i = 0 := by omega
  cases b <;> rfl

theorem find_append_left (found : find pat a = some i) (b : Str) : find pat (a ++ b) = some i := by
  induction a generalizing i with
  | nil => exact find_nil_append found b
  | cons c a ih =>
    rw [find] at found
    split at found
    · rename_i isPrefix
      have longer : pat <+: c :: (a ++ b) :=
        (List.isPrefixOf_iff_prefix.mp isPrefix).trans (List.prefix_append (c :: a) b)
      rw [List.cons_append, find, if_pos (List.isPrefixOf_iff_prefix.mpr longer)]
      exact found
    · rename_i missed
      obtain ⟨j, later, rfl⟩ := Option.map_eq_some_iff.mp found
      have short := find_le later
      have missed : ¬ pat.isPrefixOf (c :: (a ++ b)) = true := by
        rw [List.isPrefixOf_iff_prefix] at missed ⊢
        intro longer
        exact missed (List.prefix_of_prefix_length_le longer (List.prefix_append (c :: a) b)
          (by rw [List.length_cons]; omega))
      rw [List.cons_append, find, if_neg missed, ih later, Option.map_some]

theorem find_of_append (found : find pat (a ++ b) = some i) (inside : i + pat.length ≤ a.length) :
    find pat a = some i := by
  obtain ⟨rest, there⟩ := find_at found
  have within : pat <:+: a := by
    have front : pat <+: (a.drop i) := by
      rw [List.drop_append_of_le_length (by omega)] at there
      refine List.prefix_of_prefix_length_le ⟨rest, there.symm⟩ (List.prefix_append _ b) ?_
      rw [List.length_drop]
      omega
    exact front.isInfix.trans (List.drop_suffix i a).isInfix
  obtain ⟨j, first⟩ := Option.isSome_iff_exists.mp (find_isSome_iff.mpr within)
  rw [find_append_left first b] at found
  rwa [Option.some.inj found] at first

/-- A character that is not in the pattern is in no occurrence. -/
theorem infix_fresh {c : Char} (fresh : c ∉ pat) (inside : pat <:+: a ++ c :: b) : pat <:+: a ∨ pat <:+: b := by
  obtain ⟨s, t, split⟩ := inside
  rw [List.append_assoc, List.append_eq_append_iff] at split
  rcases split with ⟨mid, rfl, rest⟩ | ⟨mid, rfl, rest⟩
  · rcases List.append_eq_append_iff.mp rest with ⟨more, rfl, _⟩ | ⟨more, rfl, tail⟩
    · exact .inl ⟨s, more, by rw [List.append_assoc]⟩
    · cases more with
      | nil =>
        rw [List.append_nil]
        exact .inl ⟨s, [], by rw [List.append_nil]⟩
      | cons d more =>
        obtain ⟨rfl, _⟩ := List.cons.inj tail
        exact (fresh (List.mem_append_right mid List.mem_cons_self)).elim
  · cases mid with
    | nil =>
      cases pat with
      | nil => exact .inl (List.nil_infix)
      | cons d pat =>
        obtain ⟨rfl, _⟩ := List.cons.inj rest
        exact (fresh List.mem_cons_self).elim
    | cons d mid =>
      obtain ⟨_, rfl⟩ := List.cons.inj rest
      exact .inr ⟨mid, t, List.append_assoc _ _ _⟩

theorem infix_fresh_text {mid : Str} (fresh : ∀ c ∈ mid, c ∉ pat) (some : mid ≠ [])
    (inside : pat <:+: a ++ (mid ++ b)) : pat <:+: a ∨ pat <:+: b := by
  induction mid generalizing a with
  | nil => exact (some rfl).elim
  | cons c mid ih =>
    obtain ⟨here, later⟩ := List.forall_mem_cons.mp fresh
    rcases infix_fresh here inside with left | right
    · exact .inl left
    · cases mid with
      | nil => exact .inr right
      | cons d mid =>
        rcases ih (a := []) later (List.cons_ne_nil d mid) right with none | found
        · exact .inl (none.trans (List.nil_infix))
        · exact .inr found

theorem prefix_fresh {c : Char} (fresh : c ∉ pat) (starts : pat <+: a ++ c :: b) : pat <+: a := by
  obtain ⟨rest, split⟩ := starts
  rcases List.append_eq_append_iff.mp split with ⟨more, rfl, _⟩ | ⟨more, rfl, tail⟩
  · exact List.prefix_append pat more
  · cases more with
    | nil => rw [List.append_nil]
    | cons d more =>
      obtain ⟨rfl, _⟩ := List.cons.inj tail
      exact (fresh (List.mem_append_right a List.mem_cons_self)).elim

theorem find_append_right (nonempty : pat ≠ []) (absent : find pat a = none) {c : Char} (fresh : c ∉ pat) (b : Str) :
    find pat (a ++ c :: b) = (find pat b).map (· + (a.length + 1)) := by
  induction a with
  | nil =>
    have missed : ¬ pat.isPrefixOf (c :: b) = true := by
      rw [List.isPrefixOf_iff_prefix]
      exact fun starts => nonempty (List.prefix_nil.mp (prefix_fresh (a := []) fresh starts))
    rw [List.nil_append, find, if_neg missed]
    rfl
  | cons d a ih =>
    rw [find] at absent
    split at absent
    · cases absent
    · rename_i missed
      have missed : ¬ pat.isPrefixOf (d :: (a ++ c :: b)) = true := by
        rw [List.isPrefixOf_iff_prefix] at missed ⊢
        exact fun starts => missed (prefix_fresh (a := d :: a) fresh starts)
      rw [List.cons_append, find, if_neg missed, ih (Option.map_eq_none_iff.mp absent), Option.map_map]
      rfl

end QuestRouter.Text
