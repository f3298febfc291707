import SlotTree.Proofs.Reading.Dependence

/-!
# Builtins that a script does not mention

A builtin makes a difference only to scripts in which its name stands.  Two registries that agree
on the names in a script read it in the same way, down to the faults and their positions
(`readTokens_of_agreeOn`): names are looked up one at a time, under the texts of the tokens.

Registering is the only way in which a registry changes, and it changes what one name stands for,
at most (`find?_register_of_ne`).  It never changes what a registered name stands for
(`find?_register_of_some`), because such a name is refused.  So the builtins of the default
registry stay what they are, whatever is registered in whatever order.
-/

namespace SlotTree
namespace Registry

/-- Both registries lack the name, or it becomes the same expression in both of them, wherever it
is mentioned. -/
def AgreeOn (r r' : Registry) (name : String) : Prop :=
  match r.find? name, r'.find? name with
  | none, none => True
  | some constructor, some constructor' => ∀ span, constructor span = constructor' span
  | _, _ => False

theorem AgreeOn.find?_eq {r r' : Registry} {name : String} (h : r.AgreeOn r' name) :
    r.find? name = r'.find? name := by
  unfold AgreeOn at h
  split at h
  · next hnone hnone' => rw [hnone, hnone']
  · next constructor constructor' hsome hsome' =>
    rw [hsome, hsome', funext h]
  · exact h.elim

theorem agreeOn_of_find?_eq {r r' : Registry} {name : String} (h : r.find? name = r'.find? name) :
    r.AgreeOn r' name := by
  unfold AgreeOn
  rw [h]
  cases r'.find? name with
  | none => trivial
  | some constructor => exact fun span => rfl

/-! ## Registering -/

/-- **Registering a name leaves all others as they are.** -/
theorem find?_register_of_ne {r : Registry} {name other : String} (h : other ≠ name)
    (constructor : Constructor) : (r.register name constructor).2.find? other = r.find? other := by
  unfold register
  split
  · rfl
  · split
    · rfl
    · have hname : (name == other) = false := beq_eq_false_iff_ne.mpr h.symm
      simp only [find?, List.find?_cons, hname]

/-- **A name is registered once and for all.** -/
theorem find?_register_of_some {r : Registry} {other : String} {known : Constructor}
    (h : r.find? other = some known) (name : String) (constructor : Constructor) :
    (r.register name constructor).2.find? other = some known := by
  by_cases hname : other = name
  · subst hname
    have hcontains : r.contains other = true := by
      rw [contains, h]
      rfl
    rw [register, hcontains]
    split
    · exact h
    · exact h
  · rw [find?_register_of_ne hname, h]

/-- Registers names one after the other, passing over those that are refused. -/
def registerAll (r : Registry) (calls : List (String × Constructor)) : Registry :=
  calls.foldl (fun r call => (r.register call.1 call.2).2) r

theorem find?_registerAll_of_some {r : Registry} {name : String} {known : Constructor}
    (h : r.find? name = some known) (calls : List (String × Constructor)) :
    (r.registerAll calls).find? name = some known := by
  induction calls generalizing r with
  | nil => exact h
  | cons call calls ih => exact ih (find?_register_of_some h call.1 call.2)

/-- The names that every registry knows. -/
def coreNames : List String := ["object", "bool", "int", "float", "str", "list", "None", "print"]

theorem exists_find?_default {name : String} (h : name ∈ coreNames) :
    ∃ constructor, default.find? name = some constructor := by
  have hall : ∀ name ∈ coreNames, (default.find? name).isSome = true := by decide
  exact Option.isSome_iff_exists.mp (hall name h)

end Registry

namespace Reading

/-- Two registries that agree on the names in a list of tokens read it in the same way. -/
theorem readTokens_of_agreeOn {grammar : Grammar} {r r' : Registry} {tokens : List Token}
    (h : ∀ t ∈ tokens, t.kind = .identifier → r.AgreeOn r' t.text) (file : String) :
    readTokens ⟨grammar, r⟩ tokens file = readTokens ⟨grammar, r'⟩ tokens file := by
  -- nothing is asked of positions here
  let w : Setting := ⟨grammar, r, r', fun _ => True⟩
  have hallows : ∀ t ∈ tokens, w.Allows t := fun t ht =>
    ⟨trivial, fun hkind => (h t ht hkind).find?_eq, fun _ _ _ => trivial⟩
  exact (w.readTokens_agree hallows trivial).1

/-- **Builtins that a script does not mention do not interfere with it**: registries that agree on
its names give the same block or the same fault, a name that is registered besides changes nothing,
and no calls of `register` change what the builtins of every script stand for. -/
theorem unmentioned_builtins_irrelevant :
    (∀ (r r' : Registry) (tokens : List Token) (file : String),
      (∀ t ∈ tokens, t.kind = .identifier → r.AgreeOn r' t.text) →
      readTokens ⟨.script, r⟩ tokens file = readTokens ⟨.script, r'⟩ tokens file) ∧
    (∀ (r : Registry) (name : String) (constructor : Constructor) (tokens : List Token)
      (file : String), (∀ t ∈ tokens, t.kind = .identifier → t.text ≠ name) →
      readTokens ⟨.script, (r.register name constructor).2⟩ tokens file =
        readTokens ⟨.script, r⟩ tokens file) ∧
    (∀ (calls : List (String × Constructor)), ∀ name ∈ Registry.coreNames,
      (Registry.default.registerAll calls).find? name = Registry.default.find? name) := by
  refine ⟨fun r r' tokens file h => readTokens_of_agreeOn h file, ?_, ?_⟩
  · intro r name constructor tokens file h
    refine readTokens_of_agreeOn (fun t ht hkind => ?_) file
    exact Registry.agreeOn_of_find?_eq (Registry.find?_register_of_ne (h t ht hkind) constructor)
  · intro calls name hname
    obtain ⟨constructor, hfind⟩ := Registry.exists_find?_default hname
    rw [Registry.find?_registerAll_of_some hfind, hfind]

/-- A registry in which `len` stands for a number, after `int` and `print` have been refused. -/
def lenRegistry : Registry :=
  Registry.default.registerAll
    [("int", .ofLiteral .none), ("print", .ofLiteral .none), ("len", .ofLiteral (.int 0))]

/-- A script that has the name in a text only. -/
def sizeScript : String := "size: int = 3\nprint(size, end=\"len\")"

theorem unmentioned_builtins_irrelevant_len :
    lenRegistry.contains "len" = true ∧
      (∃ tokens, tokenize sizeScript "script" = .ok tokens ∧
        (∀ t ∈ tokens, t.kind = .identifier → t.text ≠ "len") ∧
        readTokens ⟨.script, lenRegistry⟩ tokens "script" =
          readTokens ⟨.script, .default⟩ tokens "script") ∧
      lenRegistry.find? "print" = Registry.default.find? "print" := by
  obtain ⟨-, hregister, hcore⟩ := unmentioned_builtins_irrelevant
  refine ⟨by decide, ?_, hcore _ _ (by decide)⟩
  have hnames : ((tokenize sizeScript "script").toOption.map fun tokens =>
      tokens.all fun t => t.kind != .identifier || t.text != "len") = some true := by
    decide +kernel
  cases htokens : tokenize sizeScript "script" with
  | error fault =>
    rw [htokens] at hnames
    cases hnames
  | ok tokens =>
    rw [htokens] at hnames
    have hunmentioned : ∀ t ∈ tokens, t.kind = .identifier → t.text ≠ "len" := by
      intro t ht hkind
      have hall := List.all_eq_true.mp (Option.some.inj hnames) t ht
      simpa [hkind] using hall
    exact ⟨tokens, rfl, hunmentioned, hregister .default "len" _ tokens "script" hunmentioned⟩

end Reading
end SlotTree
