import OcrService.Accounting
import OcrService.Admins
import OcrService.Authenticity
import OcrService.BirthDates
import OcrService.Bootstrap
import OcrService.Cache
import OcrService.CacheTransparency
import OcrService.Calendar
import OcrService.Calls
import OcrService.Catalog
import OcrService.Classification
import OcrService.Console
import OcrService.Cookies
import OcrService.Counting.Tally
import OcrService.CropRegions
import OcrService.DateTexts
import OcrService.Decimals.Doubles
import OcrService.Decimals.Shortest
import OcrService.Documents
import OcrService.DocxText
import OcrService.Errors
import OcrService.ExpiryDates
import OcrService.Fallback
import OcrService.FormResults
import OcrService.FormSchema
import OcrService.Functions
import OcrService.Gateway
import OcrService.GlmClient
import OcrService.GlmMapper
import OcrService.GlmPages
import OcrService.IdVerification
import OcrService.Ingest
import OcrService.Interaction.Answers
import OcrService.Interaction.Gather
import OcrService.Interaction.Guard
import OcrService.Interaction.History
import OcrService.Interaction.Lockstep
import OcrService.Interaction.Pool
import OcrService.Interaction.Program
import OcrService.Interaction.Purge
import OcrService.Interaction.Rely
import OcrService.Interaction.Table
import OcrService.JobRuns
import OcrService.JobStatus
import OcrService.Jobs
import OcrService.LastOwner
import OcrService.LayoutMapping
import OcrService.Llm
import OcrService.MetricsSummary
import OcrService.Middleware
import OcrService.MrzBlocks
import OcrService.OwnerGuard
import OcrService.PayOnce
import OcrService.PdfTamper
import OcrService.Pipeline
import OcrService.PipelineSpec
import OcrService.PlainText
import OcrService.Prompts
import OcrService.Provenance
import OcrService.Providers
import OcrService.QueueParity
import OcrService.RateLimit
import OcrService.ReadingColumns
import OcrService.ReadingOrder
import OcrService.Receipts
import OcrService.Recognition
import OcrService.Redaction
import OcrService.Registered
import OcrService.Reports
import OcrService.Residency
import OcrService.ResultSchemas
import OcrService.Router
import OcrService.RouterOrder
import OcrService.Routes
import OcrService.ScannedPdf
import OcrService.Scanning.Reader
import OcrService.Scanning.Search
import OcrService.SensitivePosts
import OcrService.Service
import OcrService.SessionRuns
import OcrService.Sessions
import OcrService.Signing
import OcrService.SigningSlots
import OcrService.SigningVerdict
import OcrService.Sorting.Stable
import OcrService.TamperSignals
import OcrService.TenantCache
import OcrService.TenantFleet
import OcrService.TenantNames
import OcrService.Tenants
import OcrService.TextExtraction
import OcrService.TextSniffing
import OcrService.TokenLedger
import OcrService.TypedErrors
import OcrService.Usage
import OcrService.Values
import OcrService.Verdicts
import OcrService.World
