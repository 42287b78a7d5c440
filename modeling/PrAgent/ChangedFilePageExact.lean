import PrAgent.ChangedFilePageRuns
set_option autoImplicit false

namespace PrAgent

section Pages

variable {input : ChangedFileList}

theorem searchPage_page {start count : Nat}
    (found : searchPage (fun count => pageFits input.options (payloadFor input start count))
      (min codeModeSerializeMaxArrayLength (input.files.length - start) + 1) 1 (min codeModeSerializeMaxArrayLength (input.files.length - start)) none =
        some count) :
    pageFits input.options (payloadFor input start count) = true ∧ 1 ≤ count ∧ start + count ≤ input.files.length := by
  rcases searchPage_found (Nat.le_refl 1) found with same | ⟨fits, positive, limited⟩
  · cases same
  · exact ⟨fits, positive, by omega⟩

theorem searchPage_alone {start : Nat} (before : start < input.files.length)
    (missed : searchPage (fun count => pageFits input.options (payloadFor input start count))
      (min codeModeSerializeMaxArrayLength (input.files.length - start) + 1) 1 (min codeModeSerializeMaxArrayLength (input.files.length - start)) none =
        none) :
    pageFits input.options (payloadFor input start 1) = false := by
  have least := (searchPage_none (Nat.le_refl 1) (by omega) missed).2
  apply least
  rw [codeModeSerializeMaxArrayLength]
  omega

-- What the token of a page leads to.
theorem pageChangedFiles_token {offset : Nat} (before : offset < input.files.length) :
    pageChangedFiles input (some (encodeContinuation (input.toLowerCase input.headSha) offset)) =
      if input.toLowerCase input.headSha = [] then .error .malformed else pageFrom input offset := by
  rw [pageChangedFiles]
  simp only [decode_token]
  by_cases empty : input.toLowerCase input.headSha = []
  · rw [if_pos empty, if_pos empty]
  · rw [if_neg empty, if_neg empty]
    simp only [ne_eq, not_true_eq_false, if_false]
    rw [if_neg (by omega)]

-- What pages that start at an offset deliver.
structure PagesDelivered (input : ChangedFileList) (start : Nat) (pages : List ChangedFilePage) (failure : Option ChangedFilePageFailure) : Prop where
  whole : failure = none → pages.flatMap ChangedFilePage.files = input.files.drop start
  part : ∀ reason, failure = some reason →
    ∃ stop < input.files.length, start ≤ stop ∧ pages.flatMap ChangedFilePage.files = (input.files.drop start).take (stop - start) ∧
      (reason = .undeliverable ∧ (boundJsonValue input.options (payloadFor input stop 1).tree).truncation ≠ none ∨
        reason = .malformed ∧ input.toLowerCase input.headSha = [])
  fits : ∀ page ∈ pages, page.files ≠ [] → (boundJsonValue input.options page.tree).truncation = none

theorem PagesDelivered.stopped {start : Nat} {reason : ChangedFilePageFailure} (before : start < input.files.length)
    (named : reason = .undeliverable ∧ (boundJsonValue input.options (payloadFor input start 1).tree).truncation ≠ none ∨
      reason = .malformed ∧ input.toLowerCase input.headSha = []) : PagesDelivered input start [] (some reason) where
  whole := by
    intro same
    cases same
  part := by
    intro other same
    cases same
    exact ⟨start, before, Nat.le_refl start, by simp, named⟩
  fits := by
    intro page listed
    cases listed

theorem PagesDelivered.last {start count : Nat} (ends : input.files.length ≤ start + count)
    (fits : count ≠ 0 → (boundJsonValue input.options (payloadFor input start count).tree).truncation = none) :
    PagesDelivered input start [payloadFor input start count] none where
  whole := by
    intro _
    rw [List.flatMap_singleton]
    exact List.take_of_length_le (by rw [List.length_drop]; omega)
  part := by
    intro reason same
    cases same
  fits := by
    intro page listed filled
    cases List.mem_singleton.mp listed
    apply fits
    intro none_taken
    rw [none_taken] at filled
    exact filled rfl

theorem PagesDelivered.cons {start count : Nat} {pages : List ChangedFilePage} {failure : Option ChangedFilePageFailure}
    (fits : (boundJsonValue input.options (payloadFor input start count).tree).truncation = none)
    (later : PagesDelivered input (start + count) pages failure) : PagesDelivered input start (payloadFor input start count :: pages) failure where
  whole := by
    intro ended
    rw [List.flatMap_cons, later.whole ended, ← List.drop_drop]
    exact List.take_append_drop count (input.files.drop start)
  part := by
    intro reason failed
    obtain ⟨stop, before, after, delivered, named⟩ := later.part reason failed
    refine ⟨stop, before, by omega, ?_, named⟩
    have sum : stop - start = count + (stop - (start + count)) := by omega
    rw [List.flatMap_cons, delivered, ← List.drop_drop, sum, List.take_add]
    rfl
  fits := by
    intro page listed filled
    rcases List.mem_cons.mp listed with rfl | listed
    · exact fits
    · exact later.fits page listed filled

-- Each page goes on by at least one file, so that the fuel is the number of files that are left.
theorem followPages_delivers (fuel : Nat) {start : Nat} {continuation : Option Text} (leads : pageChangedFiles input continuation = pageFrom input start)
    (within : start ≤ input.files.length) (enough : input.files.length - start < fuel) :
    ∃ pages failure, followPages input fuel continuation = some (pages, failure) ∧ PagesDelivered input start pages failure := by
  induction fuel generalizing start continuation with
  | zero => omega
  | succ fuel ih =>
      rw [followPages, leads, pageFrom]
      by_cases ended : start = input.files.length
      · rw [if_pos ended]
        have no_more : (payloadFor input start 0).continuation = none := if_neg (by omega)
        simp only [no_more]
        exact ⟨_, _, rfl, .last (by omega) (fun filled => absurd rfl filled)⟩
      rw [if_neg ended]
      simp only
      cases found : searchPage (fun count => pageFits input.options (payloadFor input start count))
          (min codeModeSerializeMaxArrayLength (input.files.length - start) + 1) 1
          (min codeModeSerializeMaxArrayLength (input.files.length - start)) none with
      | none =>
          have alone := searchPage_alone (by omega) found
          have cut : (boundJsonValue input.options (payloadFor input start 1).tree).truncation ≠ none := by
            intro uncut
            rw [(pageFits_iff _).mpr uncut] at alone
            cases alone
          exact ⟨_, _, rfl, .stopped (by omega) (.inl ⟨rfl, cut⟩)⟩
      | some count =>
          obtain ⟨fits, positive, limited⟩ := searchPage_page found
          have uncut := (pageFits_iff _).mp fits
          by_cases more : start + count < input.files.length
          · have next : (payloadFor input start count).continuation =
                some (encodeContinuation (input.toLowerCase input.headSha) (start + count)) := if_pos more
            simp only [next]
            by_cases empty : input.toLowerCase input.headSha = []
            · obtain ⟨fuel, rfl⟩ : ∃ n, fuel = n + 1 := ⟨fuel - 1, by omega⟩
              have refused := pageChangedFiles_token more
              rw [if_pos empty] at refused
              rw [followPages, refused]
              exact ⟨_, _, rfl, .cons uncut (.stopped more (.inr ⟨rfl, empty⟩))⟩
            · have leads' := pageChangedFiles_token more
              rw [if_neg empty] at leads'
              obtain ⟨pages, failure, followed, delivered⟩ := ih leads' (by omega) (by omega)
              rw [followed]
              exact ⟨_, _, rfl, .cons uncut delivered⟩
          · have no_more : (payloadFor input start count).continuation = none := if_neg more
            simp only [no_more]
            exact ⟨_, _, rfl, .last (by omega) (fun _ => uncut)⟩

theorem PagesDelivered.uncut {start : Nat} {pages : List ChangedFilePage} {failure : Option ChangedFilePageFailure}
    (delivered : PagesDelivered input start pages failure) {page : ChangedFilePage} (listed : page ∈ pages) (filled : page.files ≠ []) :
    boundJsonValue input.options page.tree = ⟨page.tree, none⟩ ∧ textBytes page.tree.stringify ≤ input.options.maxTransferBytes := by
  have uncut := delivered.fits page listed filled
  have same := uncut_value uncut
  constructor
  · cases bounded : boundJsonValue input.options page.tree with
    | mk value truncation =>
        rw [bounded] at uncut same
        rw [show value = page.tree from same.1, show truncation = none from uncut]
  · exact same.2

-- Every page with a file is within the budget; a list without files has its one page whatever the budget is.
theorem changed_file_paging (input : ChangedFileList) :
    ∃ pages failure, followPages input (input.files.length + 1) none = some (pages, failure) ∧
      (failure = none → pages.flatMap ChangedFilePage.files = input.files) ∧
      (∀ reason, failure = some reason →
        ∃ stop < input.files.length, pages.flatMap ChangedFilePage.files = input.files.take stop ∧
          (reason = .undeliverable ∧ (boundJsonValue input.options (payloadFor input stop 1).tree).truncation ≠ none ∨
            reason = .malformed ∧ input.toLowerCase input.headSha = [])) ∧
      ∀ page ∈ pages, page.files ≠ [] →
        boundJsonValue input.options page.tree = ⟨page.tree, none⟩ ∧ textBytes page.tree.stringify ≤ input.options.maxTransferBytes := by
  have leads : pageChangedFiles input none = pageFrom input 0 := rfl
  obtain ⟨pages, failure, followed, delivered⟩ := followPages_delivers (input.files.length + 1) leads (Nat.zero_le _) (by omega)
  refine ⟨pages, failure, followed, delivered.whole, ?_, fun page listed filled => delivered.uncut listed filled⟩
  intro reason failed
  obtain ⟨stop, before, _, taken, named⟩ := delivered.part reason failed
  exact ⟨stop, before, taken, named⟩

def noChangedFiles : ChangedFileList := ⟨[], text "a", false, none, id, { codeModeMarshal with maxTransferBytes := 40 }⟩

theorem empty_page_over_budget :
    ¬∀ (input : ChangedFileList) (fuel : Nat) (pages : List ChangedFilePage) (failure : Option ChangedFilePageFailure),
      followPages input fuel none = some (pages, failure) → ∀ page ∈ pages, textBytes page.tree.stringify ≤ input.options.maxTransferBytes := by
  intro claimed
  have large : ¬textBytes (payloadFor noChangedFiles 0 0).tree.stringify ≤ noChangedFiles.options.maxTransferBytes := by decide +kernel
  exact large (claimed noChangedFiles 1 _ none rfl _ List.mem_cons_self)

end Pages
end PrAgent
