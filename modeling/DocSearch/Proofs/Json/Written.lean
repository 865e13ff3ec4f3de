import DocSearch.Json.Reader
import DocSearch.Proofs.Json.Reordered
import Mathlib.Data.List.Induction

/-!
# Members as they are written

The text of an object may give a name more than once.  A reader writes the members one after
the other into the object, so a name has the value that is written last.

## Main definitions

* `memberList` — the members from the next one on, in the order in which they are written.
* `Json.writtenMembers?` — the members in the text of an object.

## Main results

* `readMembers_eq` — what is read is what is written, member by member.
* `Json.read_eq_obj` — an object that is read holds the members that are written.
* `Members.lookup_putAll_nil` — **a name that is repeated has its last value**.
-/

namespace DocSearch

/-- The members of an object from the next one on, with repeated names, and the rest behind
its brace. -/
def memberList (fuel depth : Nat) (cs : List Char) :
    Option (List (String × Json) × List Char) :=
  match fuel with
  | 0 => none
  | fuel + 1 => do
    let (name, rest) ← readName cs
    let (value, rest) ← readValue fuel depth rest
    match skipBlanks rest with
    | ',' :: rest => do
      let (members, rest) ← memberList fuel depth rest
      return ((name, value) :: members, rest)
    | '\x7d' :: rest => some ([(name, value)], rest)
    | _ => none

/-- The members in the text of an object, with repeated names. -/
def Json.writtenMembers? (source : String) : Option (List (String × Json)) :=
  match skipBlanks source.toList with
  | '\x7b' :: rest =>
    match skipBlanks rest with
    | '\x7d' :: _ => some []
    | rest => (memberList (2 * source.toList.length + 1) (maxDepth - 1) rest).map (·.1)
  | _ => none

/-- **What is read is what is written**, member by member. -/
theorem readMembers_eq (fuel depth : Nat) (acc : List (String × Json)) (cs : List Char) :
    readMembers fuel depth acc cs =
      (memberList fuel depth cs).map fun p => (Members.putAll acc p.1, p.2) := by
  induction fuel generalizing acc cs with
  | zero =>
    rw [readMembers, memberList]
    rfl
  | succ fuel ih =>
    rw [readMembers, memberList]
    cases hname : readName cs with
    | none => rfl
    | some named =>
      obtain ⟨name, rest⟩ := named
      simp only [Option.bind_eq_bind, Option.bind_some]
      cases hvalue : readValue fuel depth rest with
      | none => rfl
      | some valued =>
        obtain ⟨value, rest⟩ := valued
        simp only [Option.bind_some]
        generalize skipBlanks rest = behind
        by_cases hcomma : ∃ rest, behind = ',' :: rest
        · obtain ⟨rest, rfl⟩ := hcomma
          simp only [ih]
          cases memberList fuel depth rest <;> rfl
        · by_cases hbrace : ∃ rest, behind = '}' :: rest
          · obtain ⟨rest, rfl⟩ := hbrace
            rfl
          · simp only [not_exists] at hcomma hbrace
            simp

/-- An object that is read holds the members that are written. -/
theorem Json.read_eq_obj {source : String} {members : List (String × Json)}
    (h : Json.read source = some (.obj members)) :
    ∃ written, Json.writtenMembers? source = some written ∧
      members = Members.putAll [] written := by
  rw [Json.read] at h
  obtain ⟨⟨value, behind⟩, hread, hend⟩ := Option.bind_eq_some_iff.mp h
  simp only at hend
  split at hend
  case isFalse => cases hend
  cases hend
  rw [Json.readPrefix, readValue] at hread
  rw [Json.writtenMembers?]
  generalize skipBlanks source.toList = start at hread ⊢
  -- only a brace starts an object
  split at hread
  · cases hread
  · cases hread
  · cases hread
  · obtain ⟨_, -, hread⟩ := Option.bind_eq_some_iff.mp hread
    cases hread
  · simp only [maxDepth] at hread
    split at hread
    · cases hread
    · obtain ⟨_, -, hread⟩ := Option.bind_eq_some_iff.mp hread
      cases hread
  · next inside =>
    simp only [maxDepth] at hread ⊢
    generalize skipBlanks inside = rest at hread ⊢
    by_cases hbrace : ∃ behind, rest = '}' :: behind
    · obtain ⟨_, rfl⟩ := hbrace
      cases hread
      exact ⟨[], rfl, rfl⟩
    · simp only [not_exists] at hbrace
      simp only at hread ⊢
      rw [readMembers_eq] at hread
      obtain ⟨⟨_, _⟩, hmembers, hread⟩ := Option.bind_eq_some_iff.mp hread
      cases hread
      obtain ⟨⟨written, _⟩, hwritten, hmembers⟩ := Option.map_eq_some_iff.mp hmembers
      cases hmembers
      refine ⟨written, ?_, rfl⟩
      rw [hwritten]
      rfl
  · obtain ⟨_, -, hread⟩ := Option.bind_eq_some_iff.mp hread
    cases hread

/-- **A name that is repeated has its last value.** -/
theorem Members.lookup_putAll_nil {α : Type} (written : List (String × α)) (name : String) :
    (Members.putAll [] written).lookup name = written.reverse.lookup name := by
  have hacc : ∀ acc : List (String × α), (Members.putAll acc written).lookup name =
      (written.reverse.lookup name).or (acc.lookup name) := by
    induction written with
    | nil => exact fun _ => rfl
    | cons m written ih =>
      intro acc
      obtain ⟨key, value⟩ := m
      rw [show Members.putAll acc ((key, value) :: written) =
        Members.putAll (Members.put key value acc) written from rfl, ih, lookup_put,
        List.reverse_cons, List.lookup_append, Option.or_assoc]
      congr 1
      rw [lookup_cons]
      split <;> rfl
  rw [hacc]
  exact Option.or_none

/-- A name is not written at all, or there is a last member of this name. -/
theorem Members.last_cases {α : Type} (written : List (String × α)) (name : String) :
    (written.reverse.lookup name = none ∧ name ∉ names written) ∨
    ∃ before v after, written = before ++ (name, v) :: after ∧ name ∉ names after ∧
      written.reverse.lookup name = some v := by
  induction written using List.reverseRecOn with
  | nil => exact .inl ⟨rfl, List.not_mem_nil⟩
  | append_singleton written m ih =>
    obtain ⟨key, value⟩ := m
    rw [List.reverse_append, List.reverse_singleton, List.singleton_append, lookup_cons]
    by_cases hkey : name = key
    · subst hkey
      exact .inr ⟨written, value, [], rfl, List.not_mem_nil, if_pos rfl⟩
    · rw [if_neg hkey]
      rcases ih with ⟨hnone, hname⟩ | ⟨before, v, after, hsplit, hname, hsome⟩
      · exact .inl ⟨hnone, by simp [names] at hname ⊢; exact ⟨hname, hkey⟩⟩
      · refine .inr ⟨before, v, after ++ [(key, value)], by simp [hsplit], ?_, hsome⟩
        simp [names] at hname ⊢
        exact ⟨hname, hkey⟩

end DocSearch
