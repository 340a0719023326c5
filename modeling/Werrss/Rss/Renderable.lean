import Werrss.Rss.Renderer

/-!
# Rss/Renderable — exactly what the renderer takes

    validate_input  =  source id · channel texts · expiry · every article · distinct review ids

One equivalence per check, and from them **the inputs that render**.  Dates are not checked: they
are formatted afterwards, and formatting a year outside 0–9999 panics.
-/

open Machinery

namespace Werrss

/-- A text of XML 1.0 characters. -/
def IsXmlText (text : Html) : Prop := ∀ c ∈ text, isAllowedHtmlCharacter c = true

instance (text : Html) : Decidable (IsXmlText text) :=
  inferInstanceAs (Decidable (∀ c ∈ text, isAllowedHtmlCharacter c = true))

/-- 0000-01-01T00:00:00Z. -/
def rfc2822Min : DateTime := -62167219200 * 1000000000

/-- The last instant of the year 9999. -/
def rfc2822Max : DateTime := 253402300799 * 1000000000 + 999999999

/-- **The instants `to_rfc2822` formats**; it panics on every other one. -/
def FormatsRfc2822 (t : DateTime) : Prop := rfc2822Min ≤ t ∧ t ≤ rfc2822Max

instance (t : DateTime) : Decidable (FormatsRfc2822 t) :=
  inferInstanceAs (Decidable (rfc2822Min ≤ t ∧ t ≤ rfc2822Max))

/-! ## The single checks -/

theorem validateXmlText_eq_ok {field : String} {value : Html} :
    validateXmlText field value = .ok () ↔ IsXmlText value := by
  rw [validateXmlText]
  split_ifs with h
  · refine ⟨fun hok => (nomatch hok), fun htext => ?_⟩
    obtain ⟨c, hc, hbad⟩ := List.any_eq_true.mp h
    rw [htext c hc] at hbad
    cases hbad
  · refine ⟨fun _ c hc => ?_, fun _ => rfl⟩
    by_contra hbad
    exact h (List.any_eq_true.mpr ⟨c, hc, by simpa using hbad⟩)

theorem validateRequiredText_eq_ok {field value : String} :
    validateRequiredText field value = .ok () ↔ isBlank value = false := by
  rw [validateRequiredText]
  split_ifs with h
  · exact ⟨fun hok => (nomatch hok), fun hnot => absurd h (by simp [hnot])⟩
  · exact ⟨fun _ => by simpa using h, fun _ => rfl⟩

theorem validateXmlOption_eq_ok {field : String} {value : Option String} :
    validateXmlOption field value = .ok () ↔ ∀ text ∈ value, IsXmlText text.toList := by
  cases value with
  | none => exact ⟨fun _ _ h => (nomatch h), fun _ => rfl⟩
  | some text =>
    rw [validateXmlOption, validateXmlText_eq_ok]
    exact ⟨fun h t ht => Option.some.inj ht ▸ h, fun h => h text rfl⟩

/-- One check after another. -/
theorem check_bind_eq_ok {E : Type} {check : Except E Unit} {rest : Unit → Except E Unit} :
    (check >>= rest) = .ok () ↔ check = .ok () ∧ rest () = .ok () := by
  cases check with
  | error e => exact ⟨fun h => (nomatch h), fun h => nomatch h.1⟩
  | ok _ => exact ⟨fun h => ⟨rfl, h⟩, fun h => h.2⟩

/-! ## Articles -/

/-- **What the renderer asks of one article.** -/
structure RenderArticle.Renderable (article : RenderArticle) : Prop where
  review_filled : isBlank article.reviewId = false
  title_filled : isBlank article.title = false
  review : IsXmlText article.reviewId.toList
  title : IsXmlText article.title.toList
  content : IsXmlText article.contentHtml
  author : ∀ text ∈ article.author, IsXmlText text.toList
  summary : ∀ text ∈ article.summary, IsXmlText text.toList
  url : ∀ text ∈ article.originalUrl, IsXmlText text.toList

theorem validateArticle_eq_ok {article : RenderArticle} :
    validateArticle article = .ok () ↔ article.Renderable := by
  simp only [validateArticle, check_bind_eq_ok, validateRequiredText_eq_ok, validateXmlText_eq_ok,
    validateXmlOption_eq_ok]
  exact ⟨fun ⟨h1, h2, h3, h4, h5, h6, h7, h8⟩ => ⟨h1, h2, h3, h4, h5, h6, h7, h8⟩,
    fun h => ⟨h.1, h.2, h.3, h.4, h.5, h.6, h.7, h.8⟩⟩

/-- The loop takes the articles when each is renderable and no review id comes twice. -/
theorem validateArticles_eq_ok : ∀ {articles : List RenderArticle} {seen : List String},
    validateArticles seen articles = .ok () ↔
      (∀ article ∈ articles, article.Renderable) ∧
        (articles.map RenderArticle.reviewId).Nodup ∧
        ∀ article ∈ articles, article.reviewId ∉ seen
  | [], seen => by simp [validateArticles]
  | article :: articles, seen => by
    rw [validateArticles, check_bind_eq_ok, validateArticle_eq_ok]
    split_ifs with hseen
    · refine ⟨fun h => (by cases h.2), fun h => ?_⟩
      exact absurd hseen (h.2.2 article List.mem_cons_self)
    · rw [validateArticles_eq_ok, List.map_cons, List.nodup_cons]
      simp only [List.mem_map, List.mem_cons, not_or, not_exists, not_and, forall_eq_or_imp]
      constructor
      · rintro ⟨hhead, hall, hnodup, hfresh⟩
        exact ⟨⟨hhead, hall⟩, ⟨fun a ha => (hfresh a ha).1, hnodup⟩, hseen,
          fun a ha => (hfresh a ha).2⟩
      · rintro ⟨hall, hnodup, hfresh⟩
        exact ⟨hall.1, hall.2, hnodup.2, fun a ha => ⟨hnodup.1 a ha, hfresh.2 a ha⟩⟩

/-! ## Inputs -/

/-- **What the renderer asks of an input.** -/
structure RenderFeedInput.Renderable (input : RenderFeedInput) : Prop where
  source : input.sourceId ≠ Uuid.nil
  title_filled : isBlank input.title = false
  url_filled : isBlank input.feedUrl = false
  title : IsXmlText input.title.toList
  url : IsXmlText input.feedUrl.toList
  description : IsXmlText input.description.toList
  expiry : input.generatedAt < input.expiresAt
  articles : ∀ article ∈ input.articles, article.Renderable
  distinct : (input.articles.map RenderArticle.reviewId).Nodup

theorem validateInput_eq_ok {input : RenderFeedInput} :
    validateInput input = .ok () ↔ input.Renderable := by
  by_cases hsource : input.sourceId = Uuid.nil
  · rw [validateInput, if_pos hsource]
    exact ⟨fun h => (nomatch h), fun h => absurd hsource h.source⟩
  by_cases hexpiry : input.expiresAt ≤ input.generatedAt
  · rw [validateInput, if_neg hsource, if_pos hexpiry]
    refine ⟨fun h => ?_, fun h => absurd hexpiry (Int.not_le.mpr h.expiry)⟩
    simp only [check_bind_eq_ok] at h
    exact nomatch h.2.2.2.2.2
  rw [validateInput, if_neg hsource, if_neg hexpiry]
  simp only [check_bind_eq_ok, validateRequiredText_eq_ok, validateXmlText_eq_ok,
    validateArticles_eq_ok, List.not_mem_nil, not_false_eq_true, implies_true, and_true]
  refine ⟨fun h => ?_, fun h => ?_⟩
  · obtain ⟨h1, h2, h3, h4, h5, h6, h7⟩ := h
    exact ⟨hsource, h1, h2, h3, h4, h5, Int.not_le.mp hexpiry, h6, h7⟩
  · exact ⟨h.2, h.3, h.4, h.5, h.6, h.8, h.9⟩

/-- **The inputs that render.** -/
theorem render_ok_iff (writer : RssWriter) (digest : Html → String) (input : RenderFeedInput) :
    (∃ candidate, render writer digest input = .ok candidate) ↔ input.Renderable := by
  rw [← validateInput_eq_ok, render]
  cases validateInput input with
  | error e => exact ⟨fun ⟨_, h⟩ => (nomatch h), fun h => nomatch h⟩
  | ok _ => exact ⟨fun _ => rfl, fun _ => ⟨_, rfl⟩⟩

end Werrss
