import Mathlib.Data.List.Nodup

/-!
# Shared — properties

An object as its properties in order, each name once: what an assignment does, and what a sequence
of assignments comes to.

* `lookup_set`: an assignment changes one property.
* `lookup_assign_last`, `Distinct.lookup_assign`: what several assignments come to, under names that
  a key turns into others.
-/

namespace NestDdd

universe u v

/-- The properties of an object, in order. -/
abbrev Properties (α : Type u) := List (String × α)

namespace Properties

variable {α : Type u} {β : Type v} {props : Properties α} {name name' : String} {value : α}

/-- `object[name] = value`. -/
def set (props : Properties α) (name : String) (value : α) : Properties α :=
  if (props.lookup name).isSome then
    props.map fun p => if p.1 = name then (p.1, value) else p
  else props ++ [(name, value)]

theorem lookup_cons (p : String × α) (props : Properties α) (name : String) :
    List.lookup name (p :: props) = if name = p.1 then some p.2 else props.lookup name := by
  obtain ⟨key, v⟩ := p
  by_cases h : name = key
  · subst h
    simp
  · simp [List.lookup_cons, beq_false_of_ne h, h]

theorem lookup_map_set (props : Properties α) (name name' : String) (value : α) :
    List.lookup name' (props.map fun p => if p.1 = name then (p.1, value) else p) =
      (props.lookup name').map fun v => if name' = name then value else v := by
  induction props with
  | nil => rfl
  | cons p props ih =>
      rw [List.map_cons, lookup_cons, lookup_cons, ih]
      by_cases hkey : p.1 = name
      · subst hkey
        by_cases hname : name' = p.1 <;> simp [hname]
      · by_cases hname : name' = p.1
        · subst hname
          simp [hkey]
        · simp [hkey, hname]

@[simp] theorem lookup_set (props : Properties α) (name name' : String) (value : α) :
    (props.set name value).lookup name' =
      if name' = name then some value else props.lookup name' := by
  unfold set
  split
  next hsome =>
    obtain ⟨v, hv⟩ := Option.isSome_iff_exists.mp hsome
    rw [lookup_map_set]
    by_cases hname : name' = name
    · subst hname
      simp [hv]
    · cases props.lookup name' <;> simp [hname]
  next hnone =>
    rw [List.lookup_append, lookup_cons]
    by_cases hname : name' = name
    · subst hname
      simp [Option.not_isSome_iff_eq_none.mp hnone]
    · simp [hname]

theorem mem_set {p : String × α} (h : p ∈ props.set name value) :
    p = (name, value) ∨ p ∈ props := by
  unfold set at h
  split at h
  · obtain ⟨q, hq, rfl⟩ := List.mem_map.mp h
    split
    next heq => exact .inl (by rw [heq])
    next => exact .inr hq
  · rcases List.mem_append.mp h with h | h
    · exact .inr h
    · exact .inl (List.mem_singleton.mp h)

/-- The names are distinct. -/
def Distinct (props : Properties α) : Prop := (props.map Prod.fst).Nodup

theorem Distinct.set (h : props.Distinct) (name : String) (value : α) :
    (props.set name value).Distinct := by
  unfold Properties.set Distinct
  split
  · have hmap : (props.map fun p => if p.1 = name then (p.1, value) else p).map Prod.fst =
        props.map Prod.fst := by
      rw [List.map_map]
      exact List.map_congr_left fun p _ => by simp only [Function.comp]; split <;> rfl
    rwa [hmap]
  next hnone =>
    rw [List.map_append]
    refine List.nodup_append.mpr ⟨h, List.nodup_singleton _, ?_⟩
    intro a ha b hb hab
    rw [List.mem_singleton.mp hb] at hab
    subst hab
    obtain ⟨p, hp, hname⟩ := List.mem_map.mp ha
    have hlookup := List.lookup_eq_none_iff.mp (Option.not_isSome_iff_eq_none.mp hnone) p hp
    simp [hname] at hlookup

/-- A property is found under its name. -/
theorem Distinct.lookup (h : props.Distinct) {p : String × α} (hp : p ∈ props) :
    props.lookup p.1 = some p.2 := by
  induction props with
  | nil => cases hp
  | cons q props ih =>
      obtain ⟨hq, hrest⟩ := List.nodup_cons.mp h
      rw [lookup_cons]
      rcases List.mem_cons.mp hp with rfl | hp
      · simp
      · have hne : p.1 ≠ q.1 := fun heq => hq (heq ▸ List.mem_map_of_mem hp)
        rw [if_neg hne]
        exact ih hrest hp

/-- What is made of a property is found under its name. -/
theorem Distinct.lookup_filterMap {f : String × α → Option β} (h : props.Distinct)
    {p : String × α} (hp : p ∈ props) :
    List.lookup p.1 (props.filterMap fun p => (f p).map (p.1, ·)) = f p := by
  have hnames : ∀ (l : Properties α) (q : String × β),
      q ∈ l.filterMap (fun p => (f p).map (p.1, ·)) → q.1 ∈ l.map Prod.fst := by
    intro l q hq
    obtain ⟨p, hp, hq⟩ := List.mem_filterMap.mp hq
    obtain ⟨b, -, rfl⟩ := Option.map_eq_some_iff.mp hq
    exact List.mem_map_of_mem hp
  induction props with
  | nil => cases hp
  | cons q props ih =>
      obtain ⟨hq, hrest⟩ := List.nodup_cons.mp h
      rcases List.mem_cons.mp hp with rfl | hp
      · cases hf : f p with
        | some b => simp [hf]
        | none =>
            rw [List.filterMap_cons_none (by simp [hf])]
            refine List.lookup_eq_none_iff.mpr fun r hr => bne_iff_ne.mpr fun heq => hq ?_
            exact heq ▸ hnames props r hr
      · have hne : p.1 ≠ q.1 := fun heq => hq (heq ▸ List.mem_map_of_mem hp)
        cases hf : f q with
        | some b =>
            rw [List.filterMap_cons_some (by rw [hf]; rfl), lookup_cons, if_neg hne]
            exact ih hrest hp
        | none =>
            rw [List.filterMap_cons_none (by rw [hf]; rfl)]
            exact ih hrest hp

theorem mem_of_lookup (h : props.lookup name = some value) : (name, value) ∈ props := by
  induction props with
  | nil => cases h
  | cons p props ih =>
      rw [lookup_cons] at h
      split at h
      next heq =>
        obtain rfl := Option.some.inj h
        rw [heq]
        exact List.mem_cons_self
      next => exact List.mem_cons_of_mem _ (ih h)

/-! ### Many assignments -/

/-- `for (const [name, value] of entries) if (keep) object[key(name)] = value`. -/
def assign (key : String → String) (keep : String × α → Bool) (props entries : Properties α) :
    Properties α :=
  entries.foldl (fun props p => if keep p then props.set (key p.1) p.2 else props) props

section Assign

variable {key : String → String} {keep : String × α → Bool} {entries : Properties α}

theorem assign_append (before after : Properties α) :
    assign key keep props (before ++ after) =
      assign key keep (assign key keep props before) after :=
  List.foldl_append ..

theorem Distinct.assign (h : props.Distinct) : (assign key keep props entries).Distinct := by
  induction entries generalizing props with
  | nil => exact h
  | cons p entries ih =>
      rw [Properties.assign, List.foldl_cons]
      refine ih ?_
      split
      · exact h.set _ _
      · exact h

/-- What is assigned to a name is what one of the entries holds. -/
theorem mem_assign {p : String × α} (h : p ∈ assign key keep props entries) :
    p ∈ props ∨ ∃ q ∈ entries, keep q = true ∧ p = (key q.1, q.2) := by
  induction entries generalizing props with
  | nil => exact .inl h
  | cons q entries ih =>
      rw [assign, List.foldl_cons] at h
      rcases ih h with hp | ⟨q', hq', hkeep, rfl⟩
      · split at hp
        next hkeep =>
          rcases mem_set hp with rfl | hp
          · exact .inr ⟨q, List.mem_cons_self, hkeep, rfl⟩
          · exact .inl hp
        next => exact .inl hp
      · exact .inr ⟨q', List.mem_cons_of_mem _ hq', hkeep, rfl⟩

/-- Nothing is assigned to a name that no entry has. -/
theorem lookup_assign_other (h : ∀ p ∈ entries, keep p = true → key p.1 ≠ name) :
    (assign key keep props entries).lookup name = props.lookup name := by
  induction entries generalizing props with
  | nil => rfl
  | cons p entries ih =>
      rw [assign, List.foldl_cons, ← assign, ih fun q hq => h q (List.mem_cons_of_mem _ hq)]
      split
      next hkeep => rw [lookup_set, if_neg fun heq => h p List.mem_cons_self hkeep heq.symm]
      next => rfl

/-- The last entry under a name counts. -/
theorem lookup_assign_last {before after : Properties α} {p : String × α} (hkeep : keep p = true)
    (hafter : ∀ q ∈ after, keep q = true → key q.1 ≠ key p.1) :
    (assign key keep props (before ++ p :: after)).lookup (key p.1) = some p.2 := by
  rw [assign_append, assign, List.foldl_cons, ← assign, if_pos hkeep, lookup_assign_other hafter,
    lookup_set, if_pos rfl]

/-- Entries that agree under a name. -/
theorem lookup_assign_same (hall : ∀ p ∈ entries, keep p = true → key p.1 = name → p.2 = value)
    (hany : props.lookup name = some value ∨ ∃ p ∈ entries, keep p = true ∧ key p.1 = name) :
    (assign key keep props entries).lookup name = some value := by
  induction entries generalizing props with
  | nil => exact hany.resolve_right fun ⟨_, hp, _⟩ => by cases hp
  | cons p entries ih =>
      rw [assign, List.foldl_cons, ← assign]
      refine ih (fun q hq => hall q (List.mem_cons_of_mem _ hq)) ?_
      by_cases hp : keep p = true ∧ key p.1 = name
      · rw [if_pos hp.1, lookup_set, if_pos hp.2.symm, hall p List.mem_cons_self hp.1 hp.2]
        exact .inl rfl
      · refine hany.imp (fun hprops => ?_) fun ⟨q, hq, hkeep, hname⟩ => ?_
        · split
          next hkeep => rw [lookup_set, if_neg fun heq => hp ⟨hkeep, heq.symm⟩, hprops]
          next => exact hprops
        · rcases List.mem_cons.mp hq with rfl | hq
          · exact absurd ⟨hkeep, hname⟩ hp
          · exact ⟨q, hq, hkeep, hname⟩

/-- Entries whose names are distinct, and stay so, count once each. -/
theorem Distinct.lookup_assign (h : entries.Distinct) {p : String × α} (hp : p ∈ entries)
    (hkeep : keep p = true) (hinj : ∀ q ∈ entries, key q.1 = key p.1 → q.1 = p.1) :
    (Properties.assign key keep props entries).lookup (key p.1) = some p.2 := by
  obtain ⟨before, after, rfl⟩ := List.append_of_mem hp
  refine lookup_assign_last hkeep fun q hq _ heq => ?_
  have hsame := hinj q (List.mem_append_right _ (List.mem_cons_of_mem _ hq)) heq
  rw [Distinct, List.map_append, List.map_cons] at h
  have htail := (List.nodup_append.mp h).2.1
  exact (List.nodup_cons.mp htail).1 (hsame ▸ List.mem_map_of_mem hq)

end Assign

end Properties

end NestDdd
