import Tesbo.Text
import Tesbo.Reasoning.UrlReferences

/-!
# Redirects after signing in

`/login?redirect=` is text of the caller that a signed-in user is sent to, so only a path of this
site may come through.
-/

namespace Tesbo.LoginRedirects

open Reasoning.UrlReferences

def startsWith (value start : String) : Bool := start.toList.isPrefixOf value.toList

/-- `/[\u0000-\u001f\u007f]/` -/
def control (c : Char) : Bool := c.toNat ≤ 0x1F || c.toNat = 0x7F

/-- What is before the query and the fragment. -/
def pathOf (value : String) : String :=
  String.ofList (value.toList.takeWhile fun c ↦ c ≠ '?' ∧ c ≠ '#')

def safeRedirectPath : Option String → Option String
  | none => none
  | some raw =>
      if raw = "" then none
      else
        let value := jsTrim raw
        if ¬ startsWith value "/" then none
        else if startsWith value "//" ∨ startsWith value "/\\" then none
        else if value.toList.any control then none
        else if pathOf value = "/login" then none
        else some value

/-- What is accepted has one slash, then none of either kind, and no control character. -/
structure Rooted (value : String) (rest : List Char) : Prop where
  text : value.toList = '/' :: rest
  single : ∀ c ∈ rest.head?, slash c = false
  plain : ∀ c ∈ rest, control c = false

theorem startsWith_iff {value start : String} :
    startsWith value start = true ↔ start.toList <+: value.toList := List.isPrefixOf_iff_prefix

theorem rooted_of_safeRedirectPath {raw : Option String} {value : String}
    (h : safeRedirectPath raw = some value) : ∃ rest, Rooted value rest := by
  cases raw with
  | none => cases h
  | some raw =>
      unfold safeRedirectPath at h
      dsimp only at h
      split at h
      · cases h
      split at h
      · cases h
      next hslash =>
      split at h
      · cases h
      next htwo =>
      split at h
      · cases h
      next hcontrol =>
      split at h
      · cases h
      have hvalue : jsTrim raw = value := Option.some.inj h
      rw [hvalue] at hslash htwo hcontrol
      rw [not_not, startsWith_iff] at hslash
      obtain ⟨rest, hrest⟩ := hslash
      have htext : value.toList = '/' :: rest := hrest.symm
      refine ⟨rest, htext, fun c hc ↦ ?_, fun c hc ↦ ?_⟩
      · -- a second slash of either kind is what the prefixes are checked for
        by_contra hslash
        apply htwo
        rw [startsWith_iff, startsWith_iff, htext]
        cases rest with
        | nil => cases hc
        | cons c' rest =>
            obtain rfl : c' = c := Option.some.inj hc
            rw [Bool.not_eq_false] at hslash
            have hc : c' = '/' ∨ c' = '\\' := by simpa [slash] using hslash
            rcases hc with rfl | rfl
            · exact .inl ⟨rest, rfl⟩
            · exact .inr ⟨rest, rfl⟩
      · by_contra hc'
        apply hcontrol
        rw [List.any_eq_true]
        exact ⟨c, htext ▸ List.mem_cons_of_mem _ hc, Bool.not_eq_false _ ▸ hc'⟩

theorem tabOrNewline_of_control {c : Char} (h : control c = false) : tabOrNewline c = false := by
  by_contra hc
  rw [Bool.not_eq_false] at hc
  have hcases : (c = '\t' ∨ c = '\n') ∨ c = '\r' := by simpa [tabOrNewline] using hc
  rcases hcases with (rfl | rfl) | rfl
  · cases h
  · cases h
  · cases h

/-- A redirect that is accepted stays on the site the page is on, whatever that site is. -/
theorem redirect_stays_on_site [HostParser] (site : Site) {raw : Option String} {value : String}
    (h : safeRedirectPath raw = some value) : resolve site value = some site.origin := by
  obtain ⟨rest, hrooted⟩ := rooted_of_safeRedirectPath h
  exact resolve_path site hrooted.text hrooted.single
    fun c hc ↦ tabOrNewline_of_control (hrooted.plain c hc)

/-- Hosts that are already in their final form. -/
@[reducible] def asWritten : HostParser := ⟨fun _ host ↦ some (String.ofList host)⟩

def demo : Site := ⟨true, "tesbo.example", none⟩

/-- A deep link with another site in its query, and blanks around it. -/
theorem runs_link_stays_on_site :
    safeRedirectPath (some " /projects/7/runs?from=//evil.example ") =
        some "/projects/7/runs?from=//evil.example" ∧
      @resolve asWritten demo "/projects/7/runs?from=//evil.example" = some demo.origin := by
  have haccepted : safeRedirectPath (some " /projects/7/runs?from=//evil.example ") =
      some "/projects/7/runs?from=//evil.example" := by decide +kernel
  exact ⟨haccepted, @redirect_stays_on_site asWritten demo _ _ haccepted⟩

end Tesbo.LoginRedirects
