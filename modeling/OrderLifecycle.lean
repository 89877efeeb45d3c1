import OrderLifecycle.Framework.RelyGuarantee
import OrderLifecycle.Framework.History
import OrderLifecycle.Inbox.ExactlyOnce
import OrderLifecycle.Outbox.Delivery
import OrderLifecycle.Cart.Kept
import OrderLifecycle.Cart.AllOrNothing
import OrderLifecycle.Lifecycle.OrderEvolution
import OrderLifecycle.Lifecycle.Draft
import OrderLifecycle.Lifecycle.Accounts
import OrderLifecycle.Lifecycle.Logic
import OrderLifecycle.Lifecycle.Statements
import OrderLifecycle.Lifecycle.Transactions
import OrderLifecycle.Lifecycle.Stock
import OrderLifecycle.Lifecycle.OrderServices
import OrderLifecycle.Lifecycle.Cancel
import OrderLifecycle.Lifecycle.Authorization
import OrderLifecycle.Lifecycle.Consumption
import OrderLifecycle.Lifecycle.Verification
import OrderLifecycle.Lifecycle.Runs
import OrderLifecycle.Lifecycle.PaymentSafety
import OrderLifecycle.Lifecycle.StockSafety
import OrderLifecycle.Lifecycle.StockReturn
import OrderLifecycle.Lifecycle.StatusSafety
import OrderLifecycle.Ledger.Agreement
import OrderLifecycle.Auth.ReuseDetection
import OrderLifecycle.Messaging.BoundedRetry
import OrderLifecycle.Email.AtMostOnce
import OrderLifecycle.Ledger.Recovery
import OrderLifecycle.Framework.Lockstep
import OrderLifecycle.Reads.ListSafety
import OrderLifecycle.Reads.RoundTrip
import OrderLifecycle.Isolation.OwnerIsolation
import OrderLifecycle.Outbox.Starvation
import OrderLifecycle.Inventory.Cancellation
import OrderLifecycle.Auth.Interrupted
import OrderLifecycle.Outbox.NoLostWakeUp
import OrderLifecycle.Cart.OpenCart
import OrderLifecycle.Cart.Migration
import OrderLifecycle.Http.WildcardOrigins
import OrderLifecycle.Auth.OnePassword
import OrderLifecycle.Metrics.HistoryAgreement
import OrderLifecycle.Metrics.Answers
import OrderLifecycle.Metrics.Drain
import OrderLifecycle.Seed.Retirement
import OrderLifecycle.Reads.Outage
import OrderLifecycle.Counters.Agreement
import OrderLifecycle.Pipeline.Unblocked
import OrderLifecycle.Pipeline.HealthyRuns
import OrderLifecycle.Auth.Lockout
