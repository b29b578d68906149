import DocStore.Path

/-!
# What a path leads to

The relation between a value, the segments of a path and a value that they lead to, said one segment
at a time. `Value.mem_reached_iff` says that `Value.reached` lists exactly the related values.
-/

namespace DocStore.Value

/-- `Reaches v segments w` says that the segments lead from `v` to `w`. -/
inductive Reaches : Value → List String → Value → Prop
  | here (v : Value) : Reaches v [] v
  | field {fields : Document} {segment : String} {rest : List String} {v w : Value} :
    fields.get? segment = some v → Reaches v rest w →
      Reaches (document fields) (segment :: rest) w
  | element {items : List Value} {segment : String} {rest : List String} {i : Nat} {v w : Value} :
    Path.index? segment = some i → items[i]? = some v → Reaches v rest w →
      Reaches (array items) (segment :: rest) w
  | member {items : List Value} {fields : Document} {segment : String} {rest : List String}
    {w : Value} :
    document fields ∈ items → Reaches (document fields) (segment :: rest) w →
      Reaches (array items) (segment :: rest) w

mutual

theorem reaches_of_mem_reached : ∀ (v : Value) (segments : List String) {w : Value},
    w ∈ reached v segments → Reaches v segments w
  | v, [], w, h => by
    simp only [reached, List.mem_singleton] at h
    exact h ▸ .here v
  | document fields, segment :: rest, w, h => by
    simp only [reached] at h
    obtain ⟨v, hv, hw⟩ := reaches_of_mem_reachedField fields segment rest h
    exact .field hv hw
  | array items, segment :: rest, w, h => by
    simp only [reached, List.mem_append] at h
    rcases h with h | h
    · split at h
      · rename_i i hi
        obtain ⟨v, hv, hw⟩ := reaches_of_mem_reachedAt items i rest h
        exact .element hi hv hw
      · simp at h
    · obtain ⟨fields, hf, v, hv, hw⟩ := reaches_of_mem_reachedItems items segment rest h
      exact .member hf (.field hv hw)
  | null, _ :: _, _, h | bool _, _ :: _, _, h | int _, _ :: _, _, h | long _, _ :: _, _, h
  | double _, _ :: _, _, h | decimal _, _ :: _, _, h | string _, _ :: _, _, h
  | objectId _, _ :: _, _, h | date _, _ :: _, _, h | timestamp _ _, _ :: _, _, h
  | binary _ _, _ :: _, _, h | regex _ _, _ :: _, _, h | javaScript _, _ :: _, _, h
  | javaScriptWithScope _ _, _ :: _, _, h | symbol _, _ :: _, _, h | undefined, _ :: _, _, h
  | minKey, _ :: _, _, h | maxKey, _ :: _, _, h | dbPointer _ _, _ :: _, _, h => by
    simp [reached] at h

theorem reaches_of_mem_reachedField : ∀ (fields : List (String × Value)) (segment : String)
    (rest : List String) {w : Value}, w ∈ reachedField fields segment rest →
      ∃ v, Document.get? fields segment = some v ∧ Reaches v rest w
  | [], _, _, _, h => by simp [reachedField] at h
  | (k, v) :: more, segment, rest, w, h => by
    by_cases hk : k = segment
    · simp only [reachedField, hk, if_true] at h
      exact ⟨v, by simp [Document.get?, hk], reaches_of_mem_reached v rest h⟩
    · simp only [reachedField, hk, if_false] at h
      obtain ⟨u, hu, hw⟩ := reaches_of_mem_reachedField more segment rest h
      exact ⟨u, by simp [Document.get?, hk, hu], hw⟩

theorem reaches_of_mem_reachedAt : ∀ (items : List Value) (i : Nat) (rest : List String)
    {w : Value}, w ∈ reachedAt items i rest → ∃ v, items[i]? = some v ∧ Reaches v rest w
  | [], _, _, _, h => by simp [reachedAt] at h
  | v :: _, 0, rest, w, h =>
    ⟨v, by simp, reaches_of_mem_reached v rest (by simpa [reachedAt] using h)⟩
  | _ :: more, i + 1, rest, w, h => by
    obtain ⟨v, hv, hw⟩ := reaches_of_mem_reachedAt more i rest (by simpa [reachedAt] using h)
    exact ⟨v, by simpa using hv, hw⟩

theorem reaches_of_mem_reachedItems : ∀ (items : List Value) (segment : String)
    (rest : List String) {w : Value}, w ∈ reachedItems items segment rest →
      ∃ fields, document fields ∈ items ∧
        ∃ v, Document.get? fields segment = some v ∧ Reaches v rest w
  | [], _, _, _, h => by simp [reachedItems] at h
  | v :: more, segment, rest, w, h => by
    cases v with
    | document fields =>
      simp only [reachedItems, List.mem_append] at h
      rcases h with h | h
      · exact ⟨fields, by simp, reaches_of_mem_reachedField fields segment rest h⟩
      · obtain ⟨f, hf, hv⟩ := reaches_of_mem_reachedItems more segment rest h
        exact ⟨f, List.mem_cons_of_mem _ hf, hv⟩
    | _ =>
      simp only [reachedItems] at h
      obtain ⟨f, hf, hv⟩ := reaches_of_mem_reachedItems more segment rest h
      exact ⟨f, List.mem_cons_of_mem _ hf, hv⟩

end

theorem reachedField_subset_reachedItems {items : List Value} {fields : Document}
    (h : document fields ∈ items) {segment : String} {rest : List String} {w : Value}
    (hw : w ∈ reachedField fields segment rest) : w ∈ reachedItems items segment rest := by
  induction items with
  | nil => simp at h
  | cons v more ih =>
    rcases List.mem_cons.1 h with rfl | hm
    · simp [reachedItems, hw]
    · have := ih hm
      cases v <;> simp [reachedItems, this]

theorem mem_reached_of_reaches {v w : Value} {segments : List String} (h : Reaches v segments w) :
    w ∈ reached v segments := by
  induction h with
  | here v => simp [reached]
  | field hv _ ih => simpa [reached, reachedField_eq, hv] using ih
  | element hi hv _ ih =>
    simp only [reached, hi, reachedAt_eq, hv, List.mem_append]
    exact .inl ih
  | member hf _ ih =>
    simp only [reached] at ih ⊢
    exact List.mem_append_right _ (reachedField_subset_reachedItems hf ih)

/-- The list of reached values holds exactly the values that the segments lead to. -/
theorem mem_reached_iff {v w : Value} {segments : List String} :
    w ∈ reached v segments ↔ Reaches v segments w :=
  ⟨reaches_of_mem_reached v segments, mem_reached_of_reaches⟩

end DocStore.Value
