/-
# The two ways to look a recipient up

A recipient's node can be asked for by name, or taken from the nodes by recipient. Main
statement: the two know the same recipients, but of the nodes that are listed for one the
first answers to the name and the last is kept by recipient. So they agree on a recipient
exactly if its first node and its last are the same, as they are where recipients are listed
once, and in particular in every distribution that an audit passes.

A distribution that was loaded may list a recipient twice. Nothing is assumed of it here.
-/

import Mathlib.Data.List.Nodup
import Vesting.Proofs.Distribution.File

namespace Vesting.Distribution

variable {entries : List (Recipient × Node)} {n m : Node} {r : Recipient}

/-- The nodes that are listed for a recipient, in order. -/
def listed (d : Distribution) (r : Recipient) : List Node :=
  d.nodes.filter (·.record.recipient == r)

/-! ## By name -/

theorem find?_eq_head?_listed (d : Distribution) (r : Recipient) :
    d.find? r.bytes = (d.listed r).head? := by
  have same : (fun n : Node => n.record.recipient.bytes == r.bytes) =
      fun n => n.record.recipient == r := by
    funext n
    rw [Bool.eq_iff_iff, beq_iff_eq, beq_iff_eq]
    exact ⟨Recipient.eq_of_bytes_eq, congrArg Recipient.bytes⟩
  rw [find?, listed, List.head?_filter, same]

/-- The first node of a recipient answers to its bytes, and to their `0x` form. -/
theorem node_eq (d : Distribution) (r : Recipient) {key : Key}
    (named : key = .bytes r.bytes ∨ key = .text r.toHex) :
    d.node key = match (d.listed r).head? with
      | some n => .ok n
      | none => .error (.refused (.recipientNotFound r.toHex)) := by
  rcases named with rfl | rfl <;> cases first : (d.listed r).head? <;>
    simp only [node, Key.bytes?, Key.shown, Recipient.toHex, ofHex_toHex, find?_eq_head?_listed,
      first]

theorem node_eq_ok_iff (d : Distribution) (r : Recipient) :
    d.node (.bytes r.bytes) = .ok n ↔ (d.listed r).head? = some n := by
  rw [node_eq d r (.inl rfl)]
  cases (d.listed r).head? <;> simp

/-! ## By recipient -/

/-- Putting an entry leaves each recipient with one entry. -/
theorem nodup_putEntry (keyed : (entries.map (·.1)).Nodup) (n : Node) :
    ((putEntry entries n).map (·.1)).Nodup := by
  unfold putEntry
  split
  · have kept : (entries.map fun entry =>
        if entry.1 == n.record.recipient then (entry.1, n) else entry).map (·.1) =
        entries.map (·.1) := by
      rw [List.map_map]
      apply List.map_congr_left
      intro entry _
      rw [Function.comp_apply]
      split <;> rfl
    rwa [kept]
  · next fresh =>
      rw [List.map_append, List.map_singleton, List.nodup_append]
      refine ⟨keyed, List.nodup_singleton _, ?_⟩
      intro key listed other new same
      obtain ⟨entry, member, rfl⟩ := List.mem_map.1 listed
      obtain rfl := List.mem_singleton.1 new
      exact fresh (List.any_eq_true.2 ⟨entry, member, beq_iff_eq.2 same⟩)

/-- What is put is the entry of its recipient; all other entries stay. -/
theorem mem_putEntry_iff : (r, m) ∈ putEntry entries n ↔
    if n.record.recipient = r then m = n else (r, m) ∈ entries := by
  unfold putEntry
  split
  · next present =>
      obtain ⟨entry, member, same⟩ := List.any_eq_true.1 present
      rw [List.mem_map]
      split
      · next own =>
          constructor
          · rintro ⟨other, -, put⟩
            split at put <;> grind
          · rintro rfl
            exact ⟨entry, member, by grind⟩
      · next apart =>
          constructor
          · rintro ⟨other, listed, put⟩
            split at put <;> grind
          · intro listed
            exact ⟨(r, m), listed, by grind⟩
  · next fresh =>
      rw [List.mem_append, List.mem_singleton, Prod.mk.injEq]
      split
      · next own =>
          have absent : (r, m) ∉ entries := by
            intro listed
            exact fresh (List.any_eq_true.2 ⟨(r, m), listed, beq_iff_eq.2 own.symm⟩)
          simp [absent, own]
      · next apart => simp [Ne.symm apart]

/-- Putting nodes one after another leaves the last node of a recipient as its entry, or the
entry from before if none of the nodes is its own. -/
theorem mem_foldl_putEntry_iff (nodes : List Node) : (r, m) ∈ nodes.foldl putEntry entries ↔
    match (nodes.filter (·.record.recipient == r)).getLast? with
    | some last => m = last
    | none => (r, m) ∈ entries := by
  induction nodes generalizing entries with
  | nil => rfl
  | cons n nodes ih =>
      rw [List.foldl_cons, ih, List.filter_cons]
      by_cases own : n.record.recipient = r
      · rw [if_pos (beq_iff_eq.2 own), List.getLast?_cons]
        cases (nodes.filter (·.record.recipient == r)).getLast? with
        | none => simp [mem_putEntry_iff, own]
        | some last => simp
      · rw [if_neg (mt beq_iff_eq.1 own)]
        cases (nodes.filter (·.record.recipient == r)).getLast? with
        | none => simp [mem_putEntry_iff, own]
        | some last => simp

theorem nodup_foldl_putEntry (keyed : (entries.map (·.1)).Nodup) (nodes : List Node) :
    ((nodes.foldl putEntry entries).map (·.1)).Nodup := by
  induction nodes generalizing entries with
  | nil => exact keyed
  | cons n nodes ih => exact ih (nodup_putEntry keyed n)

/-- The last node of a recipient is kept under it. -/
theorem mem_byRecipient_iff (d : Distribution) (r : Recipient) :
    (r, n) ∈ d.byRecipient ↔ (d.listed r).getLast? = some n := by
  rw [byRecipient, mem_foldl_putEntry_iff, ← listed]
  cases (d.listed r).getLast? with
  | none => simp
  | some last => rw [Option.some_inj, eq_comm]

/-! ## Both -/

/-- A recipient has the same node by name as it has by recipient, or neither. -/
def LookupsAgree (d : Distribution) (r : Recipient) : Prop :=
  ∀ n : Node, d.node (.bytes r.bytes) = .ok n ↔ (r, n) ∈ d.byRecipient

theorem lookupsAgree_iff (d : Distribution) (r : Recipient) :
    d.LookupsAgree r ↔ (d.listed r).head? = (d.listed r).getLast? := by
  simp only [LookupsAgree, node_eq_ok_iff, mem_byRecipient_iff]
  exact ⟨Option.ext, fun same n => by rw [same]⟩

theorem lookupsAgree_of_length_le_one {d : Distribution} (once : (d.listed r).length ≤ 1) :
    d.LookupsAgree r := by
  rw [lookupsAgree_iff]
  match nodes : d.listed r with
  | [] => rfl
  | [_] => rfl
  | _ :: _ :: _ =>
      rw [nodes] at once
      simp at once

/-- An audit lets no recipient be listed twice. -/
theorem length_listed_le_one {d : Distribution} (consistent : d.Consistent) (r : Recipient) :
    (d.listed r).length ≤ 1 := by
  have distinct : (d.nodes.map (·.record.recipient)).Nodup := by
    have recipients := consistent.distinct
    rwa [records, List.map_map] at recipients
  have counted : (d.listed r).length = (d.nodes.map (·.record.recipient)).count r := by
    rw [listed, ← List.countP_eq_length_filter, List.count, List.countP_map]
    rfl
  rw [counted]
  exact List.nodup_iff_count_le_one.1 distinct r

/-- The two ways to look a recipient up. In every distribution, whatever it lists, the bytes of
a recipient and their `0x` form have the same answer, and each recipient has at most one entry.
The name is answered by the first node of the recipient and the entry is the last, so that the
same recipients are known; and the two agree exactly if the first node is the last, as for a
recipient that is listed once, and for everyone where an audit passes. -/
theorem lookups_first_last (d : Distribution) (r : Recipient) :
    d.node (.text r.toHex) = d.node (.bytes r.bytes) ∧
      (d.byRecipient.map (·.1)).Nodup ∧
      ((∃ n : Node, d.node (.bytes r.bytes) = .ok n) ↔ r ∈ d.byRecipient.map (·.1)) ∧
      (∀ n : Node, d.node (.bytes r.bytes) = .ok n ↔ (d.listed r).head? = some n) ∧
      (∀ n : Node, (r, n) ∈ d.byRecipient ↔ (d.listed r).getLast? = some n) ∧
      (d.LookupsAgree r ↔ (d.listed r).head? = (d.listed r).getLast?) ∧
      ((d.listed r).length ≤ 1 → d.LookupsAgree r) ∧
      (d.audit.ok = true → d.LookupsAgree r) := by
  refine ⟨?_, @nodup_foldl_putEntry [] List.nodup_nil d.nodes, ?_, fun n => node_eq_ok_iff d r,
    fun n => mem_byRecipient_iff d r, lookupsAgree_iff d r, lookupsAgree_of_length_le_one, ?_⟩
  · rw [node_eq d r (.inr rfl), node_eq d r (.inl rfl)]
  · have entry : r ∈ d.byRecipient.map (·.1) ↔ ∃ n : Node, (r, n) ∈ d.byRecipient := by
      simp
    simp only [entry, node_eq_ok_iff, mem_byRecipient_iff, ← Option.isSome_iff_exists,
      List.isSome_head?, List.getLast?_isSome]
  · intro good
    exact lookupsAgree_of_length_le_one (length_listed_le_one (ok_audit_iff.1 good) r)

/-- A distribution that lists its first recipient again, behind the second, with a larger
grant. It is not consistent, but nothing keeps it from being loaded. -/
def relisted : Distribution where
  root := List.replicate 32 0
  version := 0
  maxClaim := 60400
  maxEscrows := 3
  nodes := [⟨.ofAccount 1, none⟩, ⟨.ofAccount 2, some []⟩,
    ⟨{ Record.ofAccount 1 with cliffAmount := 200 }, some []⟩]

/-- Its first recipient has one node by name and another by recipient. -/
theorem relisted_lookups_differ :
    ofFile "tree.json" (Text.toUtf8 relisted.toText) = .ok relisted ∧
      ∃ n m : Node, relisted.node (.bytes (Record.ofAccount 1).recipient.bytes) = .ok n ∧
        ((Record.ofAccount 1).recipient, m) ∈ relisted.byRecipient ∧
        n.record.amount = 20100 ∧ m.record.amount = 20200 ∧ n.proof ≠ m.proof := by
  refine ⟨ofFile_toText rfl "tree.json", ⟨.ofAccount 1, none⟩,
    ⟨{ Record.ofAccount 1 with cliffAmount := 200 }, some []⟩, ?_, ?_, rfl, rfl, nofun⟩
  · rw [node_eq_ok_iff]
    decide
  · rw [mem_byRecipient_iff]
    decide

/-- Its second recipient is listed once, and so is everyone where an audit passes. -/
theorem lookups_first_last_relisted :
    (relisted.listed (Record.ofAccount 2).recipient).length ≤ 1 ∧
      relisted.LookupsAgree (Record.ofAccount 2).recipient ∧
      relisted.node (.text (Record.ofAccount 2).recipient.toHex) = .ok ⟨.ofAccount 2, some []⟩ ∧
      ∃ d : Distribution, buildAs twins (Record.ofWord 7) = .ok d ∧ d.audit.ok = true ∧
        d.LookupsAgree (Record.ofAccount 1).recipient := by
  have once : (relisted.listed (Record.ofAccount 2).recipient).length ≤ 1 := by decide
  obtain ⟨spelled, -, -, first, -, -, agree, -⟩ :=
    lookups_first_last relisted (Record.ofAccount 2).recipient
  have few : twins.length ≤ maxNodes := by decide
  obtain ⟨tree, built, given⟩ := buildAs_of_acceptable acceptable_twins few 7
  have audited := ok_audit_iff.2 (@consistent_ofTree twins tree 7 acceptable_twins.distinct
    acceptable_twins.amount_le few built)
  obtain ⟨-, -, -, -, -, -, -, passed⟩ :=
    lookups_first_last (ofTree tree twins 7) (Record.ofAccount 1).recipient
  refine ⟨once, agree once, ?_, _, given, audited, passed audited⟩
  rw [spelled, first]
  decide

end Vesting.Distribution
