import SourceOverlay.Proofs.Precedence

/-!
# Builds that fail

A build checks the declared transpilers one after the other and adds each before it looks at the
next. So the first unusable declaration ends the build with those in front of it added, in a
registry that other projects may be using. Nothing else is added: neither what was given in code
nor the plugins. The registry answers as before exactly where these transpilers were what it had
already.
-/

set_option autoImplicit false

namespace SourceOverlay

/-! ### Registries that answer alike -/

namespace Registry

structure Alike (r r' : Registry) : Prop where
  find : ∀ ext, r.find? ext = r'.find? ext
  has : ∀ ext, r.has ext = r'.has ext
  extensions : r.extensions = r'.extensions
  toList : r.toList = r'.toList
  owner : ∀ name, r.owner? name = r'.owner? name
  shown : ∀ name, r.shownName name = r'.shownName name

theorem alike_of_entries {r r' : Registry}
    (h : ∀ key : String, r.entries[key]? = r'.entries[key]?) : r.Alike r' := by
  have hequiv : r.entries.Equiv r'.entries := .of_forall_constGet?_eq h
  have hfind : ∀ ext, r.find? ext = r'.find? ext := by
    intro ext
    simp only [find?, h]
  have howner : ∀ name, r.owner? name = r'.owner? name := by
    intro name
    simp only [owner?, hfind]
  constructor
  · exact hfind
  · intro ext
    simp only [has, hfind]
  · exact hequiv.keys_eq
  · exact hequiv.values_eq
  · exact howner
  · intro name
    simp only [shownName, howner]

theorem entries_addAll_of_ne (r : Registry) {ts : List Transpiler} {key : String}
    (h : ∀ t ∈ ts, t.extension ≠ key) : (r.addAll ts).entries[key]? = r.entries[key]? := by
  have hnil : ts.filter (·.extension == key) = [] := by
    simpa [List.filter_eq_nil_iff] using h
  rw [entries_addAll, hnil]
  cases r.entries[key]? <;> rfl

end Registry

/-! ### Declarations up to the first unusable one -/

namespace Command.Declaration

theorem not_isVoid_of_isUsable {d : Declaration} (h : d.isUsable = true) :
    isVoid d.extension = false ∧ isVoid d.target = false ∧ isVoid d.program = false := by
  simpa [isUsable, voidField?] using h

theorem not_isBare_of_not_isVoid {field : String} (h : isVoid field = false) :
    Name.isBare field = false := by
  cases hcs : Name.Chars.undotted field.toList with
  | nil => simp [isVoid, hcs] at h
  | cons => simp [Name.isBare, hcs]

theorem isUsable_of_error {d : Declaration} {disk : Disk} {error : PluginError}
    (h : d.transpiler disk = .error error) : d.isUsable = false := by
  cases hd : d.isUsable with
  | false => rfl
  | true =>
    rw [transpiler_of_usable hd] at h
    cases h

end Command.Declaration

theorem Project.addDeclared_of_some {disk : Disk} {ds : List Command.Declaration}
    {registry registry' : Registry} {error : PluginError}
    (h : addDeclared disk ds registry = (registry', some error)) :
    ∃ before d after, ds = before ++ d :: after ∧ (∀ b ∈ before, b.isUsable = true) ∧
      d.transpiler disk = .error error ∧
      registry' = registry.addAll (before.map (·.made disk)) := by
  induction ds generalizing registry with
  | nil => simp [addDeclared] at h
  | cons d ds ih =>
    cases hd : d.isUsable with
    | true =>
      rw [addDeclared, Command.Declaration.transpiler_of_usable hd] at h
      obtain ⟨before, e, after, rfl, husable, herror, hregistry⟩ := ih h
      refine ⟨d :: before, e, after, rfl, ?_, herror, hregistry⟩
      intro b hb
      rcases List.mem_cons.mp hb with rfl | hb
      · exact hd
      · exact husable b hb
    | false =>
      obtain ⟨e, he⟩ := Command.Declaration.transpiler_of_unusable hd disk
      simp only [addDeclared, he, Prod.mk.injEq, Option.some.injEq] at h
      obtain ⟨rfl, rfl⟩ := h
      exact ⟨[], d, ds, rfl, by simp, he, rfl⟩

/-! ### What a failed build leaves -/

namespace Project.Plan

variable {disk : Disk} {plan : Plan} {listing : Disk.Listing} {registry registry' : Registry}
  {error : ProjectError}

theorem addDeclared_of_build_error
    (h : plan.build disk listing registry = (registry', .error error)) :
    ∃ cause, addDeclared disk plan.settings.declarations registry = (registry', some cause) ∧
      error = .malformedFile (plan.settings.file.getD plan.settings.projectRoot) cause.message := by
  unfold build at h
  cases hdeclared : addDeclared disk plan.settings.declarations registry with
  | mk added cause? =>
    cases cause? with
    | some cause =>
      simp only [hdeclared] at h
      obtain ⟨rfl, herror⟩ := Prod.mk.inj h
      exact ⟨cause, rfl, (Except.error.inj herror).symm⟩
    | none =>
      simp only [hdeclared] at h
      split at h
      · cases (Prod.mk.inj h).2
      · cases (Prod.mk.inj h).2

/-- The registry with what was declared before the first unusable declaration answers as before
exactly if it finds for those extensions what it found before. -/
theorem alike_addAll_iff {before : List Command.Declaration}
    (husable : ∀ b ∈ before, b.isUsable = true) :
    registry.Alike (registry.addAll (before.map (·.made disk))) ↔
      ∀ b ∈ before, registry.find? b.extension =
        (registry.addAll (before.map (·.made disk))).find? b.extension := by
  constructor
  · intro h b _
    exact h.find b.extension
  · intro h
    apply Registry.alike_of_entries
    intro key
    by_cases hkey : ∃ b ∈ before, Name.dotted b.extension = key
    · obtain ⟨b, hb, rfl⟩ := hkey
      have hvoid := (Command.Declaration.not_isVoid_of_isUsable (husable b hb)).1
      have hbare := Command.Declaration.not_isBare_of_not_isVoid hvoid
      simpa [Registry.find?, hbare] using h b hb
    · rw [Registry.entries_addAll_of_ne]
      intro t ht heq
      obtain ⟨b, hb, rfl⟩ := List.mem_map.mp ht
      exact hkey ⟨b, hb, heq⟩

/-- A build that fails has added the transpilers declared before the first unusable declaration, and
nothing else. So the registry is as it was if the first declaration is the unusable one, and
otherwise exactly if those transpilers were what it found before. -/
theorem build_failed (h : plan.build disk listing registry = (registry', .error error)) :
    ∃ before d after cause,
      plan.settings.declarations = before ++ d :: after ∧
      (∀ b ∈ before, b.isUsable = true) ∧ d.isUsable = false ∧
      d.transpiler disk = .error cause ∧
      error = .malformedFile (plan.settings.file.getD plan.settings.projectRoot) cause.message ∧
      (∀ ext, Name.isBare ext = false →
        registry'.find? ext = ((registry.find? ext).toList ++
          (before.map (·.made disk)).filter (·.extension == Name.dotted ext)).getLast?) ∧
      (registry.Alike registry' ↔
        ∀ b ∈ before, registry.find? b.extension = registry'.find? b.extension) := by
  obtain ⟨cause, hdeclared, herror⟩ := addDeclared_of_build_error h
  obtain ⟨before, d, after, hds, husable, hcause, rfl⟩ := addDeclared_of_some hdeclared
  refine ⟨before, d, after, cause, hds, husable, Command.Declaration.isUsable_of_error hcause,
    hcause, herror, ?_, alike_addAll_iff husable⟩
  intro ext hext
  exact Registry.find?_addAll registry _ hext

def halfUsable : Plan where
  settings := ⟨"/p", none, "/p", {},
    [⟨".v", ".js", "cat", [], .text⟩, ⟨".w", ".", "cat", [], .text⟩], "/p/plugins"⟩

theorem halfUsable_build :
    halfUsable.build {} (.error .notFound) .copying =
      (Registry.copying.addAll [Command.Declaration.made {} ⟨".v", ".js", "cat", [], .text⟩],
        .error (.malformedFile "/p"
          "invalid transpiler descriptor: `targetExtension` must not be empty")) := by
  rfl

theorem build_failed_halfUsable :
    ∃ registry' error before d after,
      halfUsable.build {} (.error .notFound) .copying = (registry', .error error) ∧
      halfUsable.settings.declarations = before ++ d :: after ∧ d.isUsable = false ∧
      (registry'.find? ".v" = ((Registry.copying.find? ".v").toList ++
        (before.map (·.made {})).filter (·.extension == ".v")).getLast?) ∧
      (Registry.copying.Alike registry' ↔
        ∀ b ∈ before, Registry.copying.find? b.extension = registry'.find? b.extension) := by
  obtain ⟨before, d, after, cause, hds, -, hd, -, -, hfind, hiff⟩ := build_failed halfUsable_build
  exact ⟨_, _, before, d, after, halfUsable_build, hds, hd, hfind ".v" (by decide), hiff⟩

/-- The transpiler that other projects found for `.v` has been replaced. -/
theorem failed_build_overrides :
    ∃ registry' error, halfUsable.build {} (.error .notFound) .copying = (registry', .error error) ∧
      (Registry.copying.find? ".v").map (·.target) = some ".ts" ∧
      (registry'.find? ".v").map (·.target) = some ".js" ∧ ¬ Registry.copying.Alike registry' := by
  have hbefore : (Registry.copying.find? ".v").map (·.target) = some ".ts" := by decide +kernel
  have hafter : ((Registry.copying.addAll
      [Command.Declaration.made {} ⟨".v", ".js", "cat", [], .text⟩]).find? ".v").map (·.target) =
        some ".js" := by
    decide +kernel
  refine ⟨_, _, halfUsable_build, hbefore, hafter, ?_⟩
  intro h
  rw [← h.find, hbefore] at hafter
  simp at hafter

end Project.Plan

end SourceOverlay
