import Mathlib.Data.List.DropRight
import RightsPolicy.Proofs.Cli.Catalog

namespace RightsPolicy.Cli

variable {options : Options} {files : Files} {config : Config} {now : Instant}

def cut (limit : Option Nat) (entries : List StoredPolicy) : List StoredPolicy :=
  match limit with
  | none => entries
  | some n => entries.rtake n

theorem list_eq_cut (store : Store) (limit : Option Nat) :
    store.list limit = cut limit (store.list none) := by
  cases limit with
  | none => rfl
  | some n => simp [Store.list, cut, List.rtake]

def Outcome.Lists (outcome : Outcome) (files : Files) (paths : List String) (limit : Option Nat)
    (entries : List StoredPolicy) : Prop :=
  ∃ policies, List.Forall₂ files.Holds paths policies ∧ Store.Entered [] (valid policies) entries ∧
    outcome.stdout =
      unlines (allSkipped paths policies ++ (cut limit entries).map Command.catalogLine)

inductive Thinned (files : Files) : List String → List String → Prop where
  | nil : Thinned files [] []
  | keep {paths fewer} (path : String) (h : Thinned files paths fewer) :
      Thinned files (path :: paths) (path :: fewer)
  | leave {path policy paths fewer} (hpolicy : files.Holds path policy)
      (hinvalid : policy.violations ≠ []) (h : Thinned files paths fewer) :
      Thinned files (path :: paths) fewer

variable {paths fewer : List String} {policies : List Policy}

theorem valid_of_thinned (h : Thinned files paths fewer)
    (hheld : List.Forall₂ files.Holds paths policies) :
    ∃ others, List.Forall₂ files.Holds fewer others ∧ valid others = valid policies := by
  induction h generalizing policies with
  | nil =>
    cases hheld
    exact ⟨[], .nil, rfl⟩
  | keep path _ ih =>
    cases hheld with
    | @cons _ policy _ policies hpolicy hpolicies =>
      obtain ⟨others, hothers, hsame⟩ := ih hpolicies
      refine ⟨policy :: others, .cons hpolicy hothers, ?_⟩
      rw [valid_cons, hsame, ← valid_cons]
  | leave hleft hinvalid _ ih =>
    cases hheld with
    | @cons _ policy _ policies hpolicy hpolicies =>
      obtain ⟨others, hothers, hsame⟩ := ih hpolicies
      rw [← hpolicy.unique hleft] at hinvalid
      refine ⟨others, hothers, ?_⟩
      rw [valid_cons, valid_singleton_of_invalid hinvalid, hsame, List.nil_append]

section Outcome

variable (hconfig : options.configuration files = .ok config)

include hconfig

theorem lists_of_saved {after : Store} (h : List.Forall₂ files.Holds paths policies)
    (hsave : Store.empty.saveAll config.store.keyPrefix now (valid policies) = .ok after)
    (limit : Option Nat) :
    let outcome := Invocation.run ⟨options, .catalog paths limit⟩ files now
    outcome.code ≠ .failed ∧ outcome.Lists files paths limit (after.list none) := by
  obtain ⟨hcode, hstdout⟩ := catalog_of_saved hconfig h hsave limit
  obtain ⟨entries, hentries, hentered⟩ :=
    Store.entered_of_saveAll .empty (fun _ => violations_of_mem_valid) hsave
  rw [Store.list_empty] at hentries hentered
  rw [List.nil_append] at hentries
  refine ⟨?_, policies, h, hentries ▸ hentered, ?_⟩
  · rw [hcode]
    exact ExitCode.ofPolicies_ne_failed policies
  · rw [hstdout, list_eq_cut]

/-- A catalog that does not fail lists an entry for each valid policy, in the order of its files and
cut to the limit. The same policies are listed under the same keys when files with violations are
taken out. If the catalog fails, there is nothing but reports of what has been left out. -/
theorem catalog_lists_valid (paths : List String) (limit : Option Nat) (now : Instant) :
    let outcome := Invocation.run ⟨options, .catalog paths limit⟩ files now
    (outcome.code ≠ .failed → ∃ entries, outcome.Lists files paths limit entries ∧
      ∀ fewer later, Thinned files paths fewer →
        let again := Invocation.run ⟨options, .catalog fewer limit⟩ files later
        again.code ≠ .failed ∧ ∃ others, again.Lists files fewer limit others ∧
          others.map StoredPolicy.untimed = entries.map StoredPolicy.untimed) ∧
    (outcome.code = .failed → ∃ before policies, before <+: paths ∧
      List.Forall₂ files.Holds before policies ∧
      outcome.stdout = unlines (allSkipped before policies)) := by
  intro outcome
  rcases saved_or_breaksOff files config paths now with
    ⟨policies, after, hpolicies, hsave⟩ | ⟨failure, hbreaksOff⟩
  · obtain ⟨hcode, hlists⟩ := lists_of_saved hconfig hpolicies hsave limit
    refine ⟨fun _ => ⟨_, hlists, ?_⟩, fun hfailed => absurd hfailed hcode⟩
    intro fewer later hthinned
    obtain ⟨others, hothers, hsame⟩ := valid_of_thinned hthinned hpolicies
    -- the same policies are saved, at another time only
    have halike : Store.empty.Alike .empty := Store.alike_refl Store.indexed_empty
    obtain ⟨other, hother, huntimed⟩ := Store.saveAll_of_alike halike rfl hsave later
    rw [← hsame] at hother
    obtain ⟨hagain, hlisted⟩ := lists_of_saved hconfig hothers hother limit
    exact ⟨hagain, _, hlisted, huntimed.symm⟩
  · obtain ⟨hcode, hreported⟩ := catalog_of_breaksOff hconfig hbreaksOff limit
    exact ⟨fun hnot => absurd hcode hnot, fun _ => hreported⟩

end Outcome

def usageText (members : String) : String :=
  "\x7b" ++ members ++ ",\"description\":\"d\",\"kind\":\"usage\"," ++
    "\"targetResources\":[\"r\"],\"targetUsers\":[\"u\"]\x7d"

def shelf : Files where
  read path :=
    if path = "usage.json" then .ok (usageText "\"name\":\"n\"")
    else if path = "draft.json" then .ok (usageText "\"name\":\"\"")
    else if path = "set.json" then
      .ok ("\x7b\"@context\":\"\",\"@type\":\"Set\",\"uid\":\"urn:set\",\"target\":\"t\"," ++
        "\"permission\":[\x7b\"action\":\"play\"\x7d]\x7d")
    else if path = "own.json" then .ok (usageText "\"id\":5,\"name\":\"n\"")
    else .error .absent
  writeFault _ := none

theorem shelf_usage : ∃ policy, shelf.Holds "usage.json" policy ∧
    policy.family = .generic ∧ policy.ownKey? = none ∧ policy.violations = [] :=
  Files.exists_holds (by decide +kernel)

theorem shelf_draft : ∃ policy, shelf.Holds "draft.json" policy ∧
    policy.violations = [⟨.missingName, .policy, "name"⟩] :=
  Files.exists_holds (by decide +kernel)

theorem shelf_set : ∃ policy, shelf.Holds "set.json" policy ∧ policy.violations = [] ∧
    policy.ownKey? = some ⟨"urn:set"⟩ ∧ Command.catalogLine ⟨⟨"urn:set"⟩, policy, ⟨0, 0⟩⟩ =
      "urn:set  odrl/Set  1970-01-01T00:00:00Z" :=
  Files.exists_holds (by decide +kernel)

theorem shelf_own : ∃ policy, shelf.Holds "own.json" policy ∧ policy.violations = [] ∧
    policy.ownKey? = some ⟨"5"⟩ ∧ Command.catalogLine ⟨⟨"5"⟩, policy, ⟨0, 0⟩⟩ =
      "5  generic/usage  1970-01-01T00:00:00Z" :=
  Files.exists_holds (by decide +kernel)

theorem saveAll_shelf {usage set own : Policy} (hfamily : usage.family = .generic)
    (hkey : usage.ownKey? = none) (hsetKey : set.ownKey? = some ⟨"urn:set"⟩)
    (hownKey : own.ownKey? = some ⟨"5"⟩) (keyPrefix : String) (now : Instant) :
    ∃ (after : Store) (entry : StoredPolicy),
      Store.empty.saveAll keyPrefix now [usage, set, own] = .ok after ∧
        after.list none = [entry, ⟨⟨"urn:set"⟩, set, now⟩, ⟨⟨"5"⟩, own, now⟩] := by
  obtain ⟨usage⟩ | ⟨usage⟩ := usage
  · cases hfamily
  have hfree : Store.empty.freeId? = some 1 :=
    Store.leastFree?_of_free (by simp [Store.has, Store.empty])
  obtain ⟨one, hfirst, hone, hlistOne, -⟩ := Store.exists_counted .empty usage
    (Option.map_eq_none_iff.mp hkey) hfree keyPrefix now []
  have hnone : PolicyKey.ofId 1 ≠ ⟨"urn:set"⟩ ∧ PolicyKey.ofId 1 ≠ ⟨"5"⟩ := by decide
  obtain ⟨two, hsecond, htwo, hlistTwo, -⟩ := Store.exists_own hone set hsetKey
    (by simp [hlistOne, hnone]) keyPrefix now []
  rw [hlistOne] at hlistTwo
  obtain ⟨three, hthird, -, hlistThree, -⟩ := Store.exists_own htwo own hownKey
    (by simp [hlistTwo, hnone]) keyPrefix now []
  rw [hlistTwo] at hlistThree
  refine ⟨three, _, ?_, hlistThree⟩
  rw [Store.saveAll_of_save hfirst, Store.saveAll_of_save hsecond, Store.saveAll_of_save hthird]
  rfl

theorem catalog_lists_shelf :
    let paths := ["usage.json", "draft.json", "set.json", "own.json"]
    let fewer := ["usage.json", "set.json", "own.json"]
    let catalog (paths : List String) :=
      Invocation.run ⟨⟨none, none, none, false⟩, .catalog paths (some 2)⟩ shelf ⟨0, 0⟩
    (catalog paths).code = .violations ∧
      (catalog paths).stdout = unlines
        ["draft.json: skipped, 1 violation(s)", "  name: name is required",
          "urn:set  odrl/Set  1970-01-01T00:00:00Z", "5  generic/usage  1970-01-01T00:00:00Z"] ∧
      ∃ entries others, (catalog paths).Lists shelf paths (some 2) entries ∧
        (catalog fewer).Lists shelf fewer (some 2) others ∧
        others.map StoredPolicy.untimed = entries.map StoredPolicy.untimed := by
  intro paths fewer catalog
  have hconfig : Options.configuration ⟨none, none, none, false⟩ shelf = .ok default := by decide
  obtain ⟨usage, husage, hfamily, hkey, husageValid⟩ := shelf_usage
  obtain ⟨draft, hdraft, hinvalid⟩ := shelf_draft
  obtain ⟨set, hset, hsetValid, hsetKey, hsetLine⟩ := shelf_set
  obtain ⟨own, hown, hownValid, hownKey, hownLine⟩ := shelf_own
  have hpolicies : List.Forall₂ shelf.Holds paths [usage, draft, set, own] :=
    .cons husage (.cons hdraft (.cons hset (.cons hown .nil)))
  have hvalid : valid [usage, draft, set, own] = [usage, set, own] := by
    simp [valid, husageValid, hinvalid, hsetValid, hownValid]
  obtain ⟨after, entry, hsave, hlist⟩ :=
    saveAll_shelf hfamily hkey hsetKey hownKey (default : Config).store.keyPrefix ⟨0, 0⟩
  rw [← hvalid] at hsave
  obtain ⟨hcode, hstdout⟩ := catalog_of_saved hconfig hpolicies hsave (some 2)
  have hviolations : ExitCode.ofPolicies [usage, draft, set, own] = .violations :=
    ExitCode.ofPolicies_eq_violations_iff.mpr ⟨draft, by simp, by simp [hinvalid]⟩
  rw [hviolations] at hcode
  obtain ⟨hlists, -⟩ := catalog_lists_valid hconfig paths (some 2) ⟨0, 0⟩
  obtain ⟨entries, hentries, hthinned⟩ := hlists (by simp [hcode])
  have hleft : draft.violations ≠ [] := by simp [hinvalid]
  obtain ⟨-, others, hothers, hsame⟩ :=
    hthinned fewer ⟨0, 0⟩ (.keep _ (.leave hdraft hleft (.keep _ (.keep _ .nil))))
  refine ⟨hcode, ?_, entries, others, hentries, hothers, hsame⟩
  have hcut : after.list (some 2) = [⟨⟨"urn:set"⟩, set, ⟨0, 0⟩⟩, ⟨⟨"5"⟩, own, ⟨0, 0⟩⟩] := by
    rw [list_eq_cut, hlist]
    rfl
  have hskipped : allSkipped paths [usage, draft, set, own] =
      skipped "draft.json" [⟨.missingName, .policy, "name"⟩] := by
    simp [paths, allSkipped, skipped, husageValid, hinvalid, hsetValid, hownValid]
  rw [hstdout, hcut, hskipped, List.map_cons, List.map_cons, hsetLine, hownLine]
  rfl

end RightsPolicy.Cli
