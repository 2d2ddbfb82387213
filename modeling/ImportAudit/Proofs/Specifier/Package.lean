/-
# ImportAudit.Proofs.Specifier.Package — a package and what lies below it.

The package of a specifier is what stands before the first slash, or before the second one if the
specifier begins with `@` (`packageName_splits`).  So a package is a package of its own, and a path
below it leads to the same package (`Splits.append`), where a scope alone is not enough of a package
to have paths below it.  What a specifier points at is therefore settled by its package
(`ofSpecifier_stable`); in particular a module that is built in stays so under its first segment.
-/
import ImportAudit.Proofs.Files.Absolute
import ImportAudit.Proofs.Specifier.Relative

namespace ImportAudit

namespace Specifier

/-! ## Segments -/

/-- The characters of a specifier split into those of its package and what lies below it. -/
inductive Splits : List Char → List Char → Prop
  | whole {cs : List Char} (h : '/' ∉ cs) : Splits cs cs
  | below {name sub : List Char} (h : '/' ∉ name) (hplain : name.head? ≠ some '@') :
      Splits (name ++ '/' :: sub) name
  | inScope {scope name : List Char} (hscope : '/' ∉ scope) (hat : scope.head? = some '@')
      (h : '/' ∉ name) : Splits (scope ++ '/' :: name) (scope ++ '/' :: name)
  | belowScope {scope name sub : List Char} (hscope : '/' ∉ scope) (hat : scope.head? = some '@')
      (h : '/' ∉ name) : Splits (scope ++ '/' :: (name ++ '/' :: sub)) (scope ++ '/' :: name)

variable {cs p : List Char}

theorem exists_splits (cs : List Char) : ∃ p, Splits cs p := by
  by_cases hslash : '/' ∈ cs
  · obtain ⟨first, rest, rfl, hfirst⟩ := List.eq_append_cons_of_mem hslash
    by_cases hat : first.head? = some '@'
    · by_cases hmore : '/' ∈ rest
      · obtain ⟨second, sub, rfl, hsecond⟩ := List.eq_append_cons_of_mem hmore
        exact ⟨_, .belowScope hfirst hat hsecond⟩
      · exact ⟨_, .inScope hfirst hat hmore⟩
    · exact ⟨_, .below hfirst hat⟩
  · exact ⟨_, .whole hslash⟩

theorem intercalate_two (scope name : List Char) :
    ['/'].intercalate [scope, name] = scope ++ '/' :: name := by
  rw [List.intercalate_cons_cons, List.intercalate_singleton, List.append_assoc,
    List.singleton_append]

theorem packageName_of_splits (h : Splits cs p) :
    packageName (String.ofList cs) = String.ofList p := by
  simp only [packageName, String.toList_ofList]
  cases h with
  | whole h =>
      rw [Path.splitAt_of_notMem h, List.take_of_length_le (by simp), List.intercalate_singleton,
        List.headD_cons, ite_self]
  | @below _ sub h hplain =>
      have hhead : (p ++ '/' :: sub).head? ≠ some '@' := by
        cases p with
        | nil => simp
        | cons c p => exact hplain
      rw [if_neg hhead, Path.splitAt_append h, List.headD_cons]
  | @inScope scope name hscope hat h =>
      have hhead : (scope ++ '/' :: name).head? = some '@' := by
        rw [List.head?_append, hat, Option.some_or]
      rw [if_pos hhead, Path.splitAt_append hscope, Path.splitAt_of_notMem h]
      exact congrArg String.ofList (intercalate_two scope name)
  | @belowScope scope name sub hscope hat h =>
      have hhead : (scope ++ '/' :: (name ++ '/' :: sub)).head? = some '@' := by
        rw [List.head?_append, hat, Option.some_or]
      rw [if_pos hhead, Path.splitAt_append hscope, Path.splitAt_append h]
      exact congrArg String.ofList (intercalate_two scope name)

/-- A specifier splits into its package and what lies below it. -/
theorem packageName_splits (text : String) : Splits text.toList (packageName text).toList := by
  obtain ⟨p, h⟩ := exists_splits text.toList
  have hname := packageName_of_splits h
  rw [String.ofList_toList] at hname
  rwa [hname, String.toList_ofList]

namespace Splits

/-! ## What lies below a package -/

/-- The specifier is the package or a path below it. -/
theorem eq_or_below (h : Splits cs p) : cs = p ∨ ∃ sub, cs = p ++ '/' :: sub := by
  cases h with
  | whole => exact .inl rfl
  | below => exact .inr ⟨_, rfl⟩
  | inScope => exact .inl rfl
  | @belowScope scope name sub => exact .inr ⟨sub, by simp⟩

/-- Only behind a scope has a package a slash. -/
theorem count_slash_le (h : Splits cs p) :
    p.count '/' ≤ if cs.head? = some '@' then 1 else 0 := by
  have hzero : ∀ {piece : List Char}, '/' ∉ piece → piece.count '/' = 0 :=
    List.count_eq_zero.mpr
  cases h with
  | whole h => simp [hzero h]
  | below h _ => simp [hzero h]
  | inScope hscope hat h => simp [List.head?_append, hat, hzero hscope, hzero h]
  | belowScope hscope hat h => simp [List.head?_append, hat, hzero hscope, hzero h]

/-- A package is a package of its own. -/
theorem self (h : Splits cs p) : Splits p p := by
  cases h with
  | whole h => exact .whole h
  | below h _ => exact .whole h
  | inScope hscope hat h => exact .inScope hscope hat h
  | belowScope hscope hat h => exact .inScope hscope hat h

/-- What lies below a package that is more than a scope belongs to the package. -/
theorem append (h : Splits cs p) (hp : p.head? = some '@' → '/' ∈ p) (sub : List Char) :
    Splits (p ++ '/' :: sub) p := by
  cases h with
  | whole h => exact .below h fun hat => h (hp hat)
  | below h hplain => exact .below h hplain
  | @inScope scope name hscope hat h =>
      rw [List.append_assoc, List.cons_append]
      exact .belowScope hscope hat h
  | @belowScope scope name _ hscope hat h =>
      rw [List.append_assoc, List.cons_append]
      exact .belowScope hscope hat h

/-- What the specifier begins with and has no slash, the package begins with. -/
theorem package_begins (h : Splits cs p) {start : List Char} (hslash : '/' ∉ start)
    (hstart : start <+: cs) : start <+: p := by
  rcases h.eq_or_below with rfl | ⟨sub, rfl⟩
  · exact hstart
  · have hp : p ++ ['/'] <+: p ++ '/' :: sub := ⟨sub, by simp⟩
    rcases List.prefix_or_prefix_of_prefix hstart hp with hle | hle
    · rcases List.prefix_concat_iff.mp hle with rfl | hle
      · exact absurd (List.mem_append_right p List.mem_cons_self) hslash
      · exact hle
    · exact absurd (hle.subset (List.mem_append_right p List.mem_cons_self)) hslash

end Splits

/-! ## Built-in modules -/

/-- A module that is built in is so under its package: the list holds the first segment of each of
its names, and the scheme of the runtime has no slash. -/
theorem isBuiltin_packageName {text : String} (h : isBuiltin text = true) :
    isBuiltin (packageName text) = true := by
  rw [isBuiltin, Bool.or_eq_true] at h ⊢
  rcases h with hscheme | hlisted
  · rw [List.isPrefixOf_iff_prefix] at hscheme ⊢
    exact .inl ((packageName_splits text).package_begins (by decide) hscheme)
  · have hclosed : ∀ name ∈ builtinModules, builtinModules.contains (packageName name) = true := by
      decide +kernel
    exact .inr (hclosed text (List.contains_iff_mem.mp hlisted))

/-- No module with a scope is built in. -/
theorem isBuiltin_of_scope {name : String} (h : name.toList.head? = some '@') :
    isBuiltin name = false := by
  rw [isBuiltin, Bool.or_eq_false_iff]
  constructor
  · rw [Bool.eq_false_iff, ne_eq, List.isPrefixOf_iff_prefix]
    rintro ⟨rest, hrest⟩
    rw [← hrest] at h
    cases h
  · rw [Bool.eq_false_iff, ne_eq, List.contains_iff_mem]
    intro hlisted
    have hplain : ∀ m ∈ builtinModules, m.toList.head? ≠ some '@' := by decide +kernel
    exact hplain name hlisted h

/-- A specifier with a scope is no path. -/
theorem isRelative_of_scope {text : String} (h : text.toList.head? = some '@') :
    isRelative text = false := by
  rw [Bool.eq_false_iff, ne_eq, isRelative_iff]
  intro hpath
  generalize text.toList = cs at h hpath
  have hletter : ¬ IsAsciiLetter '@' := by unfold IsAsciiLetter; decide
  have hslash : ¬ IsSlash '@' := by unfold IsSlash; decide
  cases hpath with
  | dot => simp at h
  | dots => simp at h
  | root hc =>
      obtain rfl : _ = '@' := Option.some.inj h
      exact hslash hc
  | drive hc =>
      obtain rfl : _ = '@' := Option.some.inj h
      exact hletter hc
  | scheme hc =>
      obtain rfl : _ = '@' := Option.some.inj h
      exact hletter hc

/-! ## Targets -/

/-- What is known of the package that a specifier leads to: the specifier is the package or lies
below it, only a scope brings a slash into it, it is a package of its own, and unless it is nothing
but a scope everything below it that is no path leads to what the specifier leads to. -/
structure LeadsTo (text package : String) : Prop where
  begins : text = package ∨ ∃ sub, text = package ++ "/" ++ sub
  slashes : package.toList.count '/' ≤ if text.toList.head? = some '@' then 1 else 0
  stable : packageName package = package
  below : (package.toList.head? = some '@' → '/' ∈ package.toList) →
    ∀ sub, Target.ofSpecifier (package ++ "/" ++ sub) ≠ .relative →
      Target.ofSpecifier (package ++ "/" ++ sub) = Target.ofSpecifier text

/-- A specifier is a path, or its package settles what it leads to. -/
theorem ofSpecifier_eq (text : String) :
    Target.ofSpecifier text =
      if isRelative text then .relative
      else if isBuiltin (packageName text) then .builtin (packageName text)
      else .external (packageName text) := rfl

theorem ofSpecifier_eq_relative_iff {text : String} :
    Target.ofSpecifier text = .relative ↔ isRelative text = true := by
  rw [ofSpecifier_eq]
  cases isRelative text
  · rw [if_neg Bool.false_ne_true]
    split <;> simp
  · simp

theorem package?_ofSpecifier {text package : String}
    (h : (Target.ofSpecifier text).package? = some package) :
    isRelative text = false ∧ packageName text = package := by
  rw [ofSpecifier_eq] at h
  split at h
  · cases h
  · rename_i hrelative
    refine ⟨Bool.eq_false_iff.mpr hrelative, ?_⟩
    split at h <;> exact Option.some.inj h

theorem leadsTo_package {text package : String}
    (h : (Target.ofSpecifier text).package? = some package) : LeadsTo text package := by
  obtain ⟨hrelative, rfl⟩ := package?_ofSpecifier h
  have hsplits := packageName_splits text
  refine ⟨?_, hsplits.count_slash_le, ?_, fun hp sub hpath => ?_⟩
  · rcases hsplits.eq_or_below with heq | ⟨sub, heq⟩
    · exact .inl (String.toList_injective heq)
    · refine .inr ⟨String.ofList sub, String.toList_injective ?_⟩
      rw [heq]
      simp
  · have hself := packageName_of_splits hsplits.self
    rwa [String.ofList_toList] at hself
  · have hname : packageName (packageName text ++ "/" ++ sub) = packageName text := by
      have happend := packageName_of_splits (hsplits.append hp sub.toList)
      have heq : packageName text ++ "/" ++ sub =
          String.ofList ((packageName text).toList ++ '/' :: sub.toList) :=
        String.toList_injective (by simp)
      rwa [String.ofList_toList, ← heq] at happend
    rw [ne_eq, ofSpecifier_eq_relative_iff] at hpath
    rw [ofSpecifier_eq, ofSpecifier_eq text, if_neg hpath, hrelative, hname]
    rfl

/-- The package of a specifier that is no path is stable under what lies below it; a specifier with
a scope is never a path and never built in, and the name of a module of the runtime never leads to a
package that has to be declared. -/
theorem ofSpecifier_stable (text : String) :
    (∀ package, (Target.ofSpecifier text).package? = some package → LeadsTo text package) ∧
      (text.toList.head? = some '@' →
        Target.ofSpecifier text = .external (packageName text)) ∧
      (isBuiltin text = true → ∀ package, Target.ofSpecifier text ≠ .external package) := by
  refine ⟨fun _ => leadsTo_package, fun hat => ?_, fun hbuiltin package heq => ?_⟩
  · have hscope : (packageName text).toList.head? = some '@' := by
      obtain ⟨rest, hrest⟩ := List.head?_eq_some_iff.mp hat
      have hstart : ['@'] <+: text.toList := ⟨rest, hrest.symm⟩
      obtain ⟨more, hmore⟩ := (packageName_splits text).package_begins (by decide) hstart
      rw [← hmore]
      rfl
    rw [ofSpecifier_eq, isRelative_of_scope hat, isBuiltin_of_scope hscope]
    rfl
  · rw [ofSpecifier_eq, isBuiltin_packageName hbuiltin] at heq
    split at heq <;> cases heq

end Specifier

end ImportAudit
