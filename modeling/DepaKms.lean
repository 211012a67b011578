import DepaKms.LoggedComputation
import DepaKms.Runs
import DepaKms.IndexedLog
import DepaKms.JsValue
import DepaKms.JsonTexts
import DepaKms.Platform
import DepaKms.SampleHost
import DepaKms.Logger
import DepaKms.ServiceResult
import DepaKms.Maps
import DepaKms.Tooling
import DepaKms.Settings
import DepaKms.Authentication
import DepaKms.ServiceRequest
import DepaKms.KeyReleasePolicy
import DepaKms.ReleaseDecision
import DepaKms.ReleaseSpec
import DepaKms.Attestation
import DepaKms.KeyRotationPolicy
import DepaKms.KeyMaterial
import DepaKms.WrappingKey
import DepaKms.KeyEndpoint
import DepaKms.PublicKeyEndpoint
import DepaKms.ReleaseEvidence
import DepaKms.ReleasedKeys
import DepaKms.Refusals
import DepaKms.KeyRuns
import DepaKms.KeyOffer
import DepaKms.PrivateParts
import DepaKms.Actions
import DepaKms.PolicyLedger
import DepaKms.PolicyHistory
import DepaKms.Revocation
import DepaKms.Cose
import DepaKms.Proposals
import DepaKms.ReplayBar
import DepaKms.KeyMaterialAgreement
import DepaKms.Receipts
import DepaKms.ExposureWindow
import DepaKms.OfferOrder
import DepaKms.GcpClients
import DepaKms.ProposalLog
import DepaKms.TokenPolicy
import DepaKms.AuthenticatedCallers
import DepaKms.PolicyGrowth
import DepaKms.PolicyShape
import DepaKms.PolicyRemoval
import DepaKms.KeyExpiry
import DepaKms.PemForms
import DepaKms.NonceBinding
import DepaKms.ReceiptHandles
import DepaKms.LogLevels
import DepaKms.LogPrivacy
import DepaKms.PolicyEndpoints
import DepaKms.Governance
import DepaKms.Ledger
import DepaKms.ServicePolicies
import DepaKms.ShownPolicies
import DepaKms.RequestIds
import DepaKms.PolicyInForce
import DepaKms.ServiceReleases
import DepaKms.ReplayPhases
import DepaKms.GovernanceAuthority
import DepaKms.HandedOutKeys
import DepaKms.AskedKeys
import DepaKms.ServiceOffers
import DepaKms.Refreshes
import DepaKms.PrivateAnswers
import DepaKms.ReportDecision
import DepaKms.GrantedReleases
import DepaKms.GrantedTokens
