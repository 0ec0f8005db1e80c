import Bistland.Deduplication
import Bistland.LeadKeys
import Bistland.AnswerLedger
import Bistland.Redelivery
import Bistland.EagerMode
import Bistland.AuditTimeline
import Bistland.PhoneSpelling
import Bistland.ClientIdentity
import Bistland.HandlerRun
import Bistland.CacheBackends
import Bistland.DefaultCache
import Bistland.RequestMetrics
import Bistland.StatusCodes
import Bistland.PageSubmission
import Bistland.PhoneNormalisation
import Bistland.LandingPage
import Bistland.MetricsScrape
import Bistland.Entrypoint
import Bistland.PhoneIsolation
import Bistland.SerialOrder
import Bistland.Draining
import Bistland.Provenance
import Bistland.Headers
import Bistland.AuditText
import Bistland.Journey
import Bistland.Settling
import Bistland.LeadRate
import Bistland.StartUp
import Bistland.Conservation
import Bistland.LoadTest
