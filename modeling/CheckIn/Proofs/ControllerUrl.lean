/-
# The address of the controller

A configuration is checked with its address as it was written, but used with the address without
the slashes at its end.  The two agree on everything else: what is left begins as it was written,
ends with no slash, and is the same for all addresses that differ only in how many slashes they
end with (`Config.controllerUrl_used`).

One kind of address gets past the check and cannot be used: of slashes alone nothing is left, and
a request to such an address is never sent.
-/
import CheckIn.PollClient
import CheckIn.Proofs.Resolution
import Mathlib.Data.List.DropRight

namespace CheckIn

/-- Some slashes. -/
def slashes (n : Nat) : String := String.ofList (List.replicate n '/')

namespace Config

variable {config : Config}

/-! ## Slashes at the end -/

lemma toList_baseUrl (config : Config) :
    config.baseUrl.toList = config.controllerUrl.toList.rdropWhile (· = '/') := by
  rw [baseUrl, String.toList_ofList, List.rdropWhile]

/-- What is taken away are slashes. -/
lemma exists_slashes (config : Config) : ∃ n, config.controllerUrl = config.baseUrl ++ slashes n := by
  have hslash : ∀ c ∈ config.controllerUrl.toList.rtakeWhile (· = '/'), c = '/' := by
    intro c hc
    simpa using List.mem_rtakeWhile_imp hc
  refine ⟨(config.controllerUrl.toList.rtakeWhile (· = '/')).length, String.toList_injective ?_⟩
  rw [String.toList_append, slashes, String.toList_ofList, ← List.eq_replicate_of_mem hslash,
    toList_baseUrl, List.rdropWhile_append_rtakeWhile]

/-- All slashes are taken away. -/
lemma getLast?_baseUrl (config : Config) : config.baseUrl.toList.getLast? ≠ some '/' := by
  rw [toList_baseUrl]
  rcases hrest : config.controllerUrl.toList.rdropWhile (· = '/') with _ | ⟨c, rest⟩
  · simp
  · have hne : config.controllerUrl.toList.rdropWhile (· = '/') ≠ [] := by simp [hrest]
    have hlast := List.rdropWhile_last_not _ _ hne
    rw [← hrest, List.getLast?_eq_some_getLast hne]
    simpa using hlast

/-- More slashes at the end make no difference. -/
lemma baseUrl_of_slashes {url : String} {n : Nat} (h : config.controllerUrl = url ++ slashes n) :
    config.baseUrl.toList = url.toList.rdropWhile (· = '/') := by
  rw [toList_baseUrl, h, String.toList_append, slashes, String.toList_ofList]
  clear h
  induction n with
  | zero => simp
  | succ n ih =>
    rw [List.replicate_succ', ← List.append_assoc, List.rdropWhile_concat_pos _ _ _ (by simp), ih]

/-- Something is left unless there are only slashes. -/
lemma baseUrl_eq_empty_iff : config.baseUrl = "" ↔ ∀ c ∈ config.controllerUrl.toList, c = '/' := by
  rw [← String.toList_inj, toList_baseUrl, String.toList_empty, List.rdropWhile_eq_nil_iff]
  simp

end Config

/-! ## Addresses without a host -/

/-- Trimming an address that begins with a slash leaves this slash. -/
lemma Url.cleaned_slash (cs : List Char) : ∃ rest, cleaned (String.ofList ('/' :: cs)) = '/' :: rest := by
  have hslash : ∀ p : Char → Bool, p '/' = false →
      ∃ rest, (('/' :: cs).dropWhile p).rdropWhile p = '/' :: rest := by
    intro p hp
    rw [List.dropWhile_cons_of_neg (by simp [hp]), List.rdropWhile, List.reverse_cons,
      List.dropWhile_append]
    split
    · exact ⟨[], by simp [hp]⟩
    · exact ⟨_, by rw [List.reverse_append, List.reverse_singleton, List.singleton_append]⟩
  obtain ⟨rest, hrest⟩ := hslash (fun c => decide (c.toNat ≤ 0x20)) (by decide)
  rw [List.rdropWhile] at hrest
  refine ⟨rest.filter fun c => c ≠ '\t' && c ≠ '\n' && c ≠ '\r', ?_⟩
  rw [cleaned, String.toList_ofList, hrest]
  rfl

/-- An address that begins with a slash has no scheme. -/
lemma Url.isRequestable_slash (cs : List Char) :
    isRequestable (String.ofList ('/' :: cs)) = false := by
  obtain ⟨rest, hrest⟩ := cleaned_slash cs
  rw [isRequestable, hrest]
  rfl

namespace Config

variable {config : Config}

/-- Nothing can be requested from an address of slashes. -/
lemma request_of_baseUrl_eq_empty (h : config.baseUrl = "") :
    (PollClient.ofConfig config).request = .error (.request .builder) := by
  have hurl : (PollClient.ofConfig config).statusUrl =
      String.ofList ('/' :: ("api/endpoints/".toList ++ config.endpointId.toList ++
        "/status".toList)) := by
    apply String.toList_injective
    rw [PollClient.ofConfig, statusUrl, h, String.toList_ofList]
    simp
  rw [PollClient.request, hurl, Url.isRequestable_slash]
  simp

/-- The address of a valid configuration is used as it was written, but without the slashes at its
end, however many there are.  Something is left of it unless it has only slashes; and then nothing
can be requested. -/
theorem controllerUrl_used (hvalid : config.validate = .ok ()) :
    (∃ n, config.controllerUrl = config.baseUrl ++ slashes n) ∧
    config.baseUrl.toList.getLast? ≠ some '/' ∧
    (PollClient.ofConfig config).statusUrl =
      config.baseUrl ++ "/api/endpoints/" ++ config.endpointId ++ "/status" ∧
    (∀ other : Config, other.validate = .ok () → other.endpointId = config.endpointId →
      (∃ url m n, config.controllerUrl = url ++ slashes m ∧
        other.controllerUrl = url ++ slashes n) →
      (PollClient.ofConfig other).statusUrl = (PollClient.ofConfig config).statusUrl) ∧
    ((∃ c ∈ config.controllerUrl.toList, c ≠ '/') → config.baseUrl ≠ "") ∧
    (config.baseUrl = "" → (∃ n, 0 < n ∧ config.controllerUrl = slashes n) ∧
      (PollClient.ofConfig config).request = .error (.request .builder)) := by
  obtain ⟨n, hn⟩ := exists_slashes config
  refine ⟨⟨n, hn⟩, getLast?_baseUrl config, rfl, ?_, ?_, ?_⟩
  · rintro other - hid ⟨url, m, n, hm, hn⟩
    have hsame : other.baseUrl = config.baseUrl := by
      apply String.toList_injective
      rw [baseUrl_of_slashes hm, baseUrl_of_slashes hn]
    rw [PollClient.ofConfig, PollClient.ofConfig, statusUrl, statusUrl, hsame, hid]
  · rintro ⟨c, hc, hother⟩ hempty
    exact hother (baseUrl_eq_empty_iff.mp hempty c hc)
  · intro hempty
    refine ⟨⟨n, ?_, by simpa [hempty] using hn⟩, request_of_baseUrl_eq_empty hempty⟩
    rw [Nat.pos_iff_ne_zero]
    rintro rfl
    refine (validate_eq_ok_iff.mp hvalid).controllerUrl ?_
    rw [hn, hempty]
    rfl

/-- An agent for whose controller only a slash is given. -/
def rooted : Config where
  edgeId := ⟨"edge-1"⟩
  endpointId := "7"
  controllerUrl := "/"

/-- Of a single slash nothing is left. -/
theorem not_controllerUrl_used :
    ¬ ∀ config : Config, config.validate = .ok () → config.baseUrl ≠ "" := by
  intro h
  exact h rooted (by decide) (by decide)

/-- An address is used without its two slashes, as if it had none; and a single slash does not
lead anywhere. -/
theorem rooted_used :
    (∃ config other : Config, config.validate = .ok () ∧ other.validate = .ok () ∧
      config.controllerUrl = "http://controller:9000//" ∧
      other.controllerUrl = "http://controller:9000" ∧ config.baseUrl ≠ "" ∧
      (PollClient.ofConfig other).statusUrl = (PollClient.ofConfig config).statusUrl) ∧
    rooted.validate = .ok () ∧
    (PollClient.ofConfig rooted).request = .error (.request .builder) := by
  have hdoubled : ({ rooted with controllerUrl := "http://controller:9000//" } : Config).validate =
      .ok () := by decide
  have hplain : ({ rooted with controllerUrl := "http://controller:9000" } : Config).validate =
      .ok () := by decide
  have hrooted : rooted.validate = .ok () := by decide
  obtain ⟨-, -, -, hsame, hleft, -⟩ := controllerUrl_used hdoubled
  obtain ⟨-, -, -, -, -, hnothing⟩ := controllerUrl_used hrooted
  refine ⟨⟨_, _, hdoubled, hplain, rfl, rfl, hleft ⟨'h', by decide, by decide⟩,
    hsame _ hplain rfl ⟨"http://controller:9000", 2, 0, by decide, by decide⟩⟩, hrooted,
    (hnothing (by decide)).2⟩

end Config

end CheckIn
