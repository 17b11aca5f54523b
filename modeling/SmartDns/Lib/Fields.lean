import Mathlib.Data.List.Basic
set_option autoImplicit false

/-!
Lists that are cut at a separator. Fields without the separator, with one behind each, are a
prefix of others just when the list of fields is.
-/

namespace Fields

variable {α : Type} {sep : α} {fields others : List (List α)}

/-- The fields with the separator behind each. -/
def terminated (sep : α) (fields : List (List α)) : List α :=
  fields.flatMap fun field => field ++ [sep]

@[simp] theorem terminated_nil : terminated sep ([] : List (List α)) = [] := rfl

@[simp] theorem terminated_cons (field : List α) (fields : List (List α)) :
    terminated sep (field :: fields) = field ++ sep :: terminated sep fields := by
  simp [terminated]

theorem mem_intercalate {x : α} {texts : List (List α)}
    (h : x ∈ [sep].intercalate texts) : x = sep ∨ ∃ text ∈ texts, x ∈ text := by
  induction texts with
  | nil => simp at h
  | cons text texts ih =>
    cases texts with
    | nil =>
      rw [List.intercalate_singleton] at h
      exact .inr ⟨text,List.mem_cons_self,h⟩
    | cons text' texts =>
      rw [List.intercalate_cons_cons,List.append_assoc] at h
      simp only [List.mem_append,List.mem_singleton] at h
      obtain h | h | h := h
      · exact .inr ⟨text,List.mem_cons_self,h⟩
      · exact .inl h
      · exact (ih h).imp_right fun ⟨t,ht,hx⟩ => ⟨t,List.mem_cons_of_mem text ht,hx⟩

theorem intercalate_terminated (h : fields ≠ []) :
    [sep].intercalate fields ++ [sep] = terminated sep fields := by
  induction fields with
  | nil => exact absurd rfl h
  | cons field fields ih =>
    cases fields with
    | nil => simp
    | cons next fields =>
      rw [List.intercalate_cons_cons,terminated_cons,← ih (List.cons_ne_nil _ _)]
      simp

theorem mem_head_append {x : α} {text rest : List α} (h : x ∈ (text ++ rest).head?) :
    x ∈ text.head? ∨ text = [] ∧ x ∈ rest.head? := by
  cases text with
  | nil => exact .inr ⟨rfl,h⟩
  | cons y text => exact .inl h

theorem takeWhile_append_stop {p : α → Bool} {text rest : List α} (htext : ∀ x ∈ text, p x = true)
    (hrest : ∀ x ∈ rest.head?, p x = false) : (text ++ rest).takeWhile p = text := by
  rw [List.takeWhile_append_of_pos htext]
  cases rest with
  | nil => simp
  | cons x rest => simp [hrest x rfl]

theorem dropWhile_append_stop {p : α → Bool} {text rest : List α} (htext : ∀ x ∈ text, p x = true)
    (hrest : ∀ x ∈ rest.head?, p x = false) : (text ++ rest).dropWhile p = rest := by
  rw [List.dropWhile_append_of_pos htext]
  cases rest with
  | nil => simp
  | cons x rest => simp [hrest x rfl]

/-- The first separators of two lists stand at the same place where one is a prefix of the
other. -/
theorem append_sep_isPrefix_iff {field other rest rest' : List α} (hfield : sep ∉ field)
    (hother : sep ∉ other) :
    field ++ sep :: rest <+: other ++ sep :: rest' ↔ field = other ∧ rest <+: rest' := by
  induction field generalizing other with
  | nil =>
    cases other with
    | nil => simp
    | cons x other =>
      have hx : sep ≠ x := fun heq => hother (heq ▸ List.mem_cons_self)
      simp [List.cons_prefix_cons,hx]
  | cons x field ih =>
    have hx : x ≠ sep := fun heq => hfield (heq ▸ List.mem_cons_self)
    cases other with
    | nil => simp [List.cons_prefix_cons,hx]
    | cons y other =>
      have hfield' : sep ∉ field := fun hmem => hfield (List.mem_cons_of_mem _ hmem)
      have hother' : sep ∉ other := fun hmem => hother (List.mem_cons_of_mem _ hmem)
      rw [List.cons_append,List.cons_append,List.cons_prefix_cons,ih hfield' hother',
        List.cons.injEq,and_assoc]

theorem terminated_isPrefix_iff (hfields : ∀ field ∈ fields, sep ∉ field)
    (hothers : ∀ field ∈ others, sep ∉ field) :
    terminated sep fields <+: terminated sep others ↔ fields <+: others := by
  induction fields generalizing others with
  | nil => simp
  | cons field fields ih =>
    cases others with
    | nil => simp
    | cons other others =>
      rw [terminated_cons,terminated_cons,
        append_sep_isPrefix_iff (hfields field List.mem_cons_self)
          (hothers other List.mem_cons_self),List.cons_prefix_cons,
        ih (fun f hf => hfields f (List.mem_cons_of_mem _ hf))
          (fun f hf => hothers f (List.mem_cons_of_mem _ hf))]

/-- What `split` gives has no separator in it. -/
theorem not_mem_of_mem_splitOn [BEq α] [LawfulBEq α] {text field : List α}
    (h : field ∈ text.splitOn sep) : sep ∉ field := by
  induction text generalizing field with
  | nil =>
    rw [List.splitOn_nil,List.mem_singleton] at h
    rw [h]
    exact List.not_mem_nil
  | cons x text ih =>
    rw [List.splitOn_cons_eq_if_modifyHead] at h
    split at h
    · obtain rfl | h := List.mem_cons.mp h
      · exact List.not_mem_nil
      · exact ih h
    · rename_i hx
      obtain ⟨first,rest,hsplit⟩ := List.exists_cons_of_ne_nil (List.splitOn_ne_nil sep text)
      rw [hsplit] at h ih
      obtain rfl | h := List.mem_cons.mp h
      · intro hmem
        obtain rfl | hmem := List.mem_cons.mp hmem
        · exact hx (beq_self_eq_true _)
        · exact ih List.mem_cons_self hmem
      · exact ih (List.mem_cons_of_mem _ h)

end Fields
