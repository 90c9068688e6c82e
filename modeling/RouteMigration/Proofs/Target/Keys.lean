import RouteMigration.Proofs.Form.Alphabet
import RouteMigration.Proofs.Target.Inversion

/-! What the endpoint keys of conventional queue names look like. Both parts are written with the
characters and escapes of form values, only the system holds hyphens, and each hyphen of the
name that separates no segments is still there. Every such key can be decoded. -/

namespace RouteMigration.Target

open RouteMigration.Text

/-- A key in which nothing is left to escape, with hyphens in its system only. -/
structure EscapedKey (key system environment : List Char) : Prop
    extends Keyed key system environment where
  system : Form.Escaped ('-' :: Form.formMarks) system
  environment : Form.Escaped Form.formMarks environment

theorem escapedKey_encodedKey {system environment : List Char} (hs : system ≠ [])
    (he : environment ≠ []) (hyphen : '-' ∉ environment) :
    EscapedKey (encodedKey system environment) (Form.encode system) (Form.encode environment) where
  eq := rfl
  given := ⟨mt Form.encode_eq_nil_iff.mp hs, mt Form.encode_eq_nil_iff.mp he⟩
  hash := ⟨Form.hash_not_mem_encode system, Form.hash_not_mem_encode environment⟩
  system := Form.escaped_encode system
  environment := by
    refine (Form.escaped_encode environment).without (List.count_eq_zero.mp ?_)
    rw [Form.count_hyphen_encode, List.count_eq_zero]
    exact hyphen

/-- Three of the hyphens of a name separate its parts, all others are in the system. -/
theorem Segmented.count_hyphen {queue first second system environment : List Char}
    (h : Segmented queue first second system environment) :
    queue.count '-' = system.count '-' + 3 := by
  rw [h.eq]
  simp only [List.count_append, List.count_cons_self, List.count_eq_zero_of_not_mem h.first,
    List.count_eq_zero_of_not_mem h.second, List.count_eq_zero_of_not_mem h.environment]
  omega

/-- The key of an ordinary name is fully escaped, it keeps the hyphens of the system, and every
environment has a queue name for it. -/
theorem toEndpointKey_escaped {env queue key : String} (hash : '#' ∉ queue.toList)
    (hordinary : ∀ s ∈ specials, queue.toList ≠ s.queue) (h : toEndpointKey env queue = .ok key) :
    (∃ system environment, EscapedKey key.toList system environment ∧
      queue.toList.count '-' = system.count '-' + 3) ∧
      ∀ other, ∃ name, toQueueName other key = .ok name := by
  have hkey := onText_eq_ok_iff.mp h
  rw [keyOfQueue_of_ordinary env.toList hordinary hash] at hkey
  obtain ⟨first, second, system, environment, hseg, hs, he, heq⟩ := encodeQueue_eq_ok_iff.mp hkey
  constructor
  · refine ⟨Form.encode system, Form.encode environment, ?_, ?_⟩
    · rw [heq]
      exact escapedKey_encodedKey hs he hseg.environment
    · rw [hseg.count_hyphen, Form.count_hyphen_encode]
  · intro other
    obtain ⟨name, hname, -⟩ := queueOfKey_segmented other.toList hash hordinary hseg hs he
    refine ⟨String.ofList name, onText_eq_ok_iff.mpr ?_⟩
    rw [heq, hname, String.toList_ofList]

theorem toEndpointKey_escaped_crmAveng :
    '#' ∉ "emx-to-crm-aveng-dev:skim".toList ∧
      (∀ s ∈ specials, "emx-to-crm-aveng-dev:skim".toList ≠ s.queue) ∧
      toEndpointKey "dev" "emx-to-crm-aveng-dev:skim" = .ok "crm-aveng#dev%3Askim" ∧
      (∃ system environment, EscapedKey "crm-aveng#dev%3Askim".toList system environment ∧
        "emx-to-crm-aveng-dev:skim".toList.count '-' = system.count '-' + 3) ∧
      ∃ name, toQueueName "stage" "crm-aveng#dev%3Askim" = .ok name := by
  have hash : '#' ∉ "emx-to-crm-aveng-dev:skim".toList := by decide
  have hordinary : ∀ s ∈ specials, "emx-to-crm-aveng-dev:skim".toList ≠ s.queue := by
    rw [forall_specials]
    decide
  have hkey : toEndpointKey "dev" "emx-to-crm-aveng-dev:skim" = .ok "crm-aveng#dev%3Askim" := rfl
  obtain ⟨hescaped, hname⟩ := toEndpointKey_escaped hash hordinary hkey
  exact ⟨hash, hordinary, hkey, hescaped, hname "stage"⟩

end RouteMigration.Target
