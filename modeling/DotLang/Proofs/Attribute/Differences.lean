import DotLang.Proofs.Attribute.Collecting
import DotLang.Proofs.Attribute.Layering

/-!
# Sets next to their templates

A set is written next to a template, without the entries that the template has as well. What is
left are the differences between the template alone and the set on top of it: a set that is built
from them does the same to the template as the set itself. So they do not change if the set is put
on top of its template first, and they tell sets apart exactly as far as the template does.

* `Attributes.differences`: what is written of a set next to a template;
* `Attributes.mem_differences_iff`: in which keys the set on top differs from the template alone;
* `Attributes.differences_eq_iff`: sets of which the same is written;
* `Attributes.differences_suffice`: what the differences say.
-/

namespace DotLang

namespace Attributes

variable {o : Owner} {a b d : Attributes o} {k s : String}

/-- The entries of a set that a template does not have. -/
def differences (d a : Attributes o) : List (String × String) :=
  withoutDefaults a.entries d.entries

/-- What is written is what is found in the set on top of its template and not in the template
    alone. -/
theorem mem_differences_iff (ha : a.Proper) :
    (k, s) ∈ d.differences a ↔ (d.merge a).get? k = some s ∧ d.get? k ≠ some s := by
  rw [differences, mem_withoutDefaults, mem_entries_iff, mem_entries_iff, ha.get?_merge,
    Option.or_eq_some_iff]
  constructor
  · rintro ⟨hs, hne⟩
    exact ⟨.inl hs, hne⟩
  · rintro ⟨hs | ⟨-, hs⟩, hne⟩
    · exact ⟨hs, hne⟩
    · exact absurd hs hne

/-- What is written is collected from both sets. -/
theorem withoutDefaults_collect (d a : Attributes o) :
    withoutDefaults a.collect d.collect = d.differences a := by
  rw [collect_eq, collect_eq, differences]

/-- What is written can be assigned to every set. -/
theorem Proper.exists_set_differences (ha : a.Proper) (d : Attributes o) :
    ∀ e ∈ d.differences a, ∀ c : Attributes o, ∃ c', c.set e.1 e.2 = .ok c' :=
  fun _ he => ha.exists_set (mem_withoutDefaults.1 he).1

/-- Assignments in place succeed, all of them, if none of them fails on any set. -/
theorem attempts_eq_ok {pairs : List (String × String)}
    (h : ∀ e ∈ pairs, ∀ c : Attributes o, ∃ c', c.set e.1 e.2 = .ok c') (a : Attributes o) :
    ∀ r ∈ (a.attempts pairs).1, r = .ok () := by
  induction pairs generalizing a with
  | nil => nofun
  | cons e pairs ih =>
    have first : (a.attempt e.1 e.2).1 = .ok () := by
      obtain ⟨c, hc⟩ := h e List.mem_cons_self a
      rw [attempt_eq, hc]
    exact List.forall_mem_cons.2
      ⟨first, ih (fun e he => h e (List.mem_cons_of_mem _ he)) (a.attempt e.1 e.2).2⟩

/-- The same is written of two sets exactly if they are the same on top of the template. -/
theorem differences_eq_iff (hd : d.Proper) (ha : a.Proper) (hb : b.Proper) :
    d.differences b = d.differences a ↔ d.merge b = d.merge a := by
  constructor
  · intro heq
    rw [← merge_assignAll_withoutDefaults hd hb, ← merge_assignAll_withoutDefaults hd ha]
    exact congrArg (fun pairs => d.merge ((∅ : Attributes o).assignAll pairs)) heq
  · intro heq
    rw [differences, differences, ← hb.withoutDefaults_merge d, heq, ha.withoutDefaults_merge]

/-- What is written of the set `a` next to the template `d` makes up for the set. -/
structure Suffices (d a : Attributes o) : Prop where
  /-- It is filtered out of what is collected from both. -/
  collected : withoutDefaults a.collect d.collect = d.differences a
  /-- It is that in which the set on top of its template differs from the template alone. -/
  mem_iff : ∀ k s, (k, s) ∈ d.differences a ↔
    (d.merge a).get? k = some s ∧ d.get? k ≠ some s
  /-- Assigning it does not fail, and the set that is built is as good as the set itself. -/
  accepted : ∀ r ∈ ((∅ : Attributes o).attempts (d.differences a)).1, r = .ok ()
  rebuilt : ∃ b, ofPairs (d.differences a) = .ok b ∧
    ((∅ : Attributes o).attempts (d.differences a)).2 = b ∧
    d.merge b = d.merge a ∧ d.copyAll b = d.copyAll a
  /-- The same is written of the set on top of its template. -/
  again : d.differences (d.merge a) = d.differences a
  againInPlace : withoutDefaults (d.copyAll a).collect d.collect = d.differences a
  /-- It is written of no set that would not be the same on top of the template. -/
  determined : ∀ b : Attributes o, b.Built →
    (d.differences b = d.differences a ↔ d.merge b = d.merge a)

/-- For all sets that come of assignments and of putting sets on top, the differences suffice. -/
theorem differences_suffice (hd : d.Built) (ha : a.Built) : d.Suffices a where
  collected := d.withoutDefaults_collect a
  mem_iff _ _ := mem_differences_iff ha.proper
  accepted := attempts_eq_ok (ha.proper.exists_set_differences d) ∅
  rebuilt := by
    have same := merge_assignAll_withoutDefaults hd.proper ha.proper
    refine ⟨_, setAll_eq_of_forall (ha.proper.exists_set_differences d) ∅, attempts_snd _ _,
      same, ?_⟩
    rw [copyAll_eq, copyAll_eq]
    exact same
  again := ha.proper.withoutDefaults_merge d
  againInPlace := by
    rw [copyAll_eq, withoutDefaults_collect]
    exact ha.proper.withoutDefaults_merge d
  determined _ hb := differences_eq_iff hd.proper ha.proper hb.proper

/-- Keys with the same text in both sets are left out, also where the text is empty or the number
    was spelled differently, and an empty text is written where the template has another. -/
theorem differences_suffice_empty_texts : ∃ d a : Attributes .node, d.Built ∧ a.Built ∧
    d.entries = [("color", "blue"), ("fontname", ""), ("fontsize", "14"), ("label", "x"),
      ("penwidth", "2"), ("shape", "box")] ∧
    a.entries = [("color", "red"), ("fontname", ""), ("fontsize", "14"), ("label", ""),
      ("shape", "box"), ("zorder", "")] ∧
    d.differences a = [("color", "red"), ("label", ""), ("zorder", "")] ∧ d.Suffices a :=
  let d : Attributes .node := assignAll ∅ [("shape", "box"), ("color", "blue"), ("label", "x"),
    ("fontname", ""), ("fontsize", "14.0"), ("penwidth", "2")]
  let below : Attributes .node := assignAll ∅ [("color", "green"), ("fontname", "")]
  let above : Attributes .node := assignAll ∅ [("shape", "box"), ("color", "red"), ("label", ""),
    ("fontsize", " 1.4e1"), ("zorder", "")]
  have hd : d.Built := Built.empty.assignAll _
  have ha : (below.merge above).Built := .merge (Built.empty.assignAll _) (Built.empty.assignAll _)
  ⟨d, below.merge above, hd, ha, by decide +kernel, by decide +kernel, by decide +kernel,
    differences_suffice hd ha⟩

end Attributes

end DotLang
